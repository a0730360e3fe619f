import Switchboard.Proofs.Expr.Polish

/-!
# Infix expressions over a table

The grammar says which lists of tokens are expressions, and nothing about how
they are grouped. A grouping is a tree of operators and operands. It has a
Polish form, from which it can be read back, and a value: a binary operator
receives the value on its right first.
-/
namespace Switchboard.Expr

universe u

variable {α : Type u}

namespace Table

/-- A token that stands for a value. -/
structure Operand (table : Table α) where
  token : String
  role : table.role token = .operand

/-- An operator of one operand, which is written before it. -/
structure Unary (table : Table α) where
  token : String
  precedence : Nat
  apply : α → α
  positive : 0 < precedence
  role : table.role token = .operator ⟨precedence, .unary apply, positive⟩

/-- An operator of two operands, which is written between them. -/
structure Binary (table : Table α) where
  token : String
  precedence : Nat
  apply : α → α → α
  positive : 0 < precedence
  role : table.role token = .operator ⟨precedence, .binary apply, positive⟩

/-- Lists of tokens that are expressions. -/
inductive IsExpression (table : Table α) : List String → Prop where
  | operand (name : table.Operand) : IsExpression table [name.token]
  | unary (sign : table.Unary) {tokens : List String} (inner : IsExpression table tokens) :
      IsExpression table (sign.token :: tokens)
  | binary (sign : table.Binary) {tokens tokens' : List String}
      (left : IsExpression table tokens) (right : IsExpression table tokens') :
      IsExpression table (tokens ++ sign.token :: tokens')
  | enclosed {tokens : List String} (inner : IsExpression table tokens) :
      IsExpression table (openMark :: (tokens ++ [closeMark]))

variable {table : Table α}

theorem find?_of_role {token : String} {operator : Operator α}
    (role : table.role token = .operator operator) : table.find? token = some operator := by
  unfold Table.role at role
  split at role
  · exact nomatch role
  · split at role
    · exact nomatch role
    · split at role
      · rename_i found
        obtain rfl := Role.operator.inj role
        exact found
      · exact nomatch role

/-- An operator is entered in the table. -/
theorem entry_of_role {token : String} {operator : Operator α}
    (role : table.role token = .operator operator) : (token, operator) ∈ table.operators := by
  obtain ⟨before, after, entries, _⟩ := List.lookup_eq_some_iff.mp (find?_of_role role)
  rw [entries]
  exact List.mem_append_right before List.mem_cons_self

theorem Operand.eq_of_token {name name' : table.Operand} (same : name.token = name'.token) :
    name = name' := by
  obtain ⟨token, role⟩ := name
  obtain ⟨token', role'⟩ := name'
  obtain rfl : token = token' := same
  rfl

/-- A token has one meaning as an operator. -/
theorem Unary.eq_of_token {sign sign' : table.Unary} (same : sign.token = sign'.token) :
    sign = sign' := by
  obtain ⟨token, precedence, f, positive, role⟩ := sign
  obtain ⟨token', precedence', f', positive', role'⟩ := sign'
  obtain rfl : token = token' := same
  cases role.symm.trans role'
  rfl

theorem Binary.eq_of_token {sign sign' : table.Binary} (same : sign.token = sign'.token) :
    sign = sign' := by
  obtain ⟨token, precedence, f, positive, role⟩ := sign
  obtain ⟨token', precedence', f', positive', role'⟩ := sign'
  obtain rfl : token = token' := same
  cases role.symm.trans role'
  rfl

theorem Operand.ne_unary (name : table.Operand) (sign : table.Unary) : name.token ≠ sign.token := by
  intro same
  have role := name.role
  rw [same, sign.role] at role
  exact nomatch role

theorem Operand.ne_binary (name : table.Operand) (sign : table.Binary) :
    name.token ≠ sign.token := by
  intro same
  have role := name.role
  rw [same, sign.role] at role
  exact nomatch role

theorem Unary.ne_binary (sign : table.Unary) (sign' : table.Binary) : sign.token ≠ sign'.token := by
  intro same
  have role := sign.role
  rw [same, sign'.role] at role
  injection role with operator
  injection operator with _ application
  exact nomatch application

end Table

/-- An expression as a tree of operators and operands. -/
inductive Grouping (table : Table α) where
  | operand (name : table.Operand)
  | unary (sign : table.Unary) (inner : Grouping table)
  | binary (sign : table.Binary) (left right : Grouping table)

namespace Grouping

variable {table : Table α}

/-- The value of an expression from the values of its operands. -/
def value (assign : String → α) : Grouping table → α
  | .operand name => assign name.token
  | .unary sign inner => sign.apply (inner.value assign)
  | .binary sign left right => sign.apply (right.value assign) (left.value assign)

/-- Every operator before its operands, the right one of two first. -/
def polish : Grouping table → List String
  | .operand name => [name.token]
  | .unary sign inner => sign.token :: inner.polish
  | .binary sign left right => sign.token :: (right.polish ++ left.polish)

/-- The Polish form of a tree stands for its value. -/
theorem denotes (tree : Grouping table) {assign : String → α}
    (known : ∀ token ∈ tree.polish, table.role token = .operand →
      table.resolve token = some (assign token))
    {rest : List String} {values : List α} (later : Denotes table rest values) :
    Denotes table (tree.polish ++ rest) (tree.value assign :: values) := by
  induction tree generalizing rest values with
  | operand name =>
    have resolved := known name.token List.mem_cons_self name.role
    exact .operand (Table.names_of_role name.role) resolved later
  | unary sign inner ih =>
    exact .unary sign.role (ih (List.forall_mem_cons.mp known).2 later)
  | binary sign left right ih ih' =>
    obtain ⟨_, known⟩ := List.forall_mem_cons.mp known
    obtain ⟨known', known⟩ := List.forall_mem_append.mp known
    rw [polish, List.cons_append, List.append_assoc]
    exact .binary sign.role (ih' known' (ih known later))

/-- A tree is found again in its Polish form. -/
theorem eq_of_polish {tree tree' : Grouping table} {rest rest' : List String}
    (same : tree.polish ++ rest = tree'.polish ++ rest') : tree = tree' ∧ rest = rest' := by
  induction tree generalizing tree' rest rest' with
  | operand name =>
    cases tree' with
    | operand name' =>
      obtain ⟨token, below⟩ := List.cons.inj same
      exact ⟨congrArg operand (Table.Operand.eq_of_token token), below⟩
    | unary sign' => exact absurd (List.cons.inj same).1 (name.ne_unary sign')
    | binary sign' => exact absurd (List.cons.inj same).1 (name.ne_binary sign')
  | unary sign inner ih =>
    cases tree' with
    | operand name' => exact absurd (List.cons.inj same).1.symm (name'.ne_unary sign)
    | unary sign' inner' =>
      obtain ⟨token, below⟩ := List.cons.inj same
      obtain ⟨rfl, rest_eq⟩ := ih below
      exact ⟨by rw [Table.Unary.eq_of_token token], rest_eq⟩
    | binary sign' => exact absurd (List.cons.inj same).1 (sign.ne_binary sign')
  | binary sign left right ih ih' =>
    cases tree' with
    | operand name' => exact absurd (List.cons.inj same).1.symm (name'.ne_binary sign)
    | unary sign' => exact absurd (List.cons.inj same).1.symm (sign'.ne_binary sign)
    | binary sign' left' right' =>
      rw [polish, polish, List.cons_append, List.cons_append, List.append_assoc, List.append_assoc]
        at same
      obtain ⟨token, below⟩ := List.cons.inj same
      obtain ⟨rfl, below'⟩ := ih' below
      obtain ⟨rfl, rest_eq⟩ := ih below'
      exact ⟨by rw [Table.Binary.eq_of_token token], rest_eq⟩

end Grouping

end Switchboard.Expr
