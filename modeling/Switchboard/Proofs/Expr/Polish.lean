import Switchboard.Proofs.Expr.Shunting
import Switchboard.Proofs.Expr.Tokens

/-!
# What Polish tokens stand for

Tokens in Polish form in which every operator has its operands stand for a
list of values, and both evaluations find these values: the one from the right
has them on its stack in the end, the one from the left comes upon them one
after the other. The tokens of a Polish form are tokens of the infix text.
-/
namespace Switchboard.Expr

open Switchboard.Text

universe u

variable {α : Type u}

/-- A token that is no operator, in Polish form. Parentheses are such tokens there. -/
def Table.Names (table : Table α) (token : String) : Prop :=
  ∀ operator, table.role token ≠ .operator operator

theorem Table.names_of_role {table : Table α} {token : String}
    (role : table.role token = .operand) : table.Names token := by
  intro operator same
  exact nomatch role.symm.trans same

theorem Table.names_or_operator (table : Table α) (token : String) :
    table.Names token ∨ ∃ operator, table.role token = .operator operator := by
  unfold Table.Names
  cases table.role token with
  | operator operator => exact .inr ⟨operator, rfl⟩
  | _ => exact .inl nofun

theorem Table.push_name {table : Table α} {token : String} (names : table.Names token)
    (stack : List α) : table.push token stack = (table.resolve token).map (· :: stack) := by
  unfold Table.push
  split
  · rename_i operator role
    exact absurd role (names operator)
  · rfl

/-- The values that tokens in Polish form stand for. -/
inductive Denotes (table : Table α) : List String → List α → Prop where
  | nil : Denotes table [] []
  | operand {token : String} {rest : List String} {value : α} {values : List α}
      (names : table.Names token) (resolved : table.resolve token = some value)
      (later : Denotes table rest values) : Denotes table (token :: rest) (value :: values)
  | unary {token : String} {rest : List String} {precedence : Nat} {f : α → α}
      {positive : 0 < precedence} {a : α} {values : List α}
      (role : table.role token = .operator ⟨precedence, .unary f, positive⟩)
      (later : Denotes table rest (a :: values)) : Denotes table (token :: rest) (f a :: values)
  | binary {token : String} {rest : List String} {precedence : Nat} {f : α → α → α}
      {positive : 0 < precedence} {a b : α} {values : List α}
      (role : table.role token = .operator ⟨precedence, .binary f, positive⟩)
      (later : Denotes table rest (a :: b :: values)) :
      Denotes table (token :: rest) (f a b :: values)

namespace Denotes

variable {table : Table α} {tokens : List String} {values : List α}

/-- From the right: the values are on the stack. -/
theorem stackOf (denotes : Denotes table tokens values) : table.stackOf tokens = some values := by
  induction denotes with
  | nil => rfl
  | operand names resolved _ ih =>
    rw [Table.stackOf, ih, Option.bind_some, Table.push_name names, resolved]
    rfl
  | unary role _ ih =>
    rw [Table.stackOf, ih, Option.bind_some, Table.push, role]
    rfl
  | binary role _ ih =>
    rw [Table.stackOf, ih, Option.bind_some, Table.push, role]
    rfl

/-- From the left: the first value comes first, and the tokens after it stand for the others. -/
theorem descend {fuel : Nat} {value : α} (parent : String)
    (denotes : Denotes table tokens (value :: values)) (enough : tokens.length ≤ fuel) :
    ∃ rest, table.descend fuel parent tokens = .ok (value, rest) ∧ Denotes table rest values ∧
      rest.length < tokens.length := by
  induction fuel generalizing tokens value values parent with
  | zero =>
    have nothing : tokens = [] := List.length_eq_zero_iff.mp (by omega)
    rw [nothing] at denotes
    exact nomatch denotes
  | succ fuel ih =>
    cases denotes with
    | @operand token rest _ _ names resolved later =>
      refine ⟨rest, ?_, later, Nat.lt_succ_self _⟩
      rw [Table.descend]
      split
      · rename_i role
        exact absurd role (names _)
      · rename_i role
        exact absurd role (names _)
      · simp only [resolved]
    | @unary token rest _ _ _ _ _ role later =>
      have enough' : rest.length ≤ fuel := Nat.le_of_succ_le_succ enough
      obtain ⟨left, first, denotes, shorter⟩ := ih token later enough'
      refine ⟨left, ?_, denotes, Nat.lt_succ_of_lt shorter⟩
      rw [Table.descend]
      simp only [role, first]
    | @binary token rest _ _ _ _ _ _ role later =>
      have enough' : rest.length ≤ fuel := Nat.le_of_succ_le_succ enough
      obtain ⟨left, first, denotes, shorter⟩ := ih token later enough'
      obtain ⟨right, second, denotes', shorter'⟩ := ih token denotes (by omega)
      refine ⟨right, ?_, denotes', ?_⟩
      · rw [Table.descend]
        simp only [role, first, second]
      · rw [List.length_cons]
        omega

theorem evaluateTokens {value : α} (denotes : Denotes table tokens [value]) :
    table.evaluateTokens tokens = .ok value := by
  obtain ⟨rest, found, later, shorter⟩ := denotes.descend "" (Nat.le_refl _)
  have some_token : tokens.isEmpty = false := by
    rw [List.isEmpty_eq_false_iff_exists_mem]
    exact List.exists_mem_of_length_pos (by omega)
  rw [Table.evaluateTokens, some_token, if_neg Bool.false_ne_true, found]
  cases later
  rfl

end Denotes

/-- The tokens of a Polish form are tokens of the infix form. -/
theorem polish_mem {table : Table α} {tokens polish : List String}
    (compiles : table.polish tokens = .ok polish) : ∀ token ∈ polish, token ∈ tokens := by
  intro token member
  exact (List.mem_filter.mp ((Table.polish_perm compiles).mem_iff.mp member)).1

/-- The tokens of a Polish form are found again in its text. -/
theorem tokensOf_polish {table : Table α} {tokens polish : List String}
    (words : ∀ token ∈ tokens, IsWord token.toList) (compiles : table.polish tokens = .ok polish) :
    tokensOf (joinStrings " " polish) = polish :=
  tokensOf_joinStrings fun token member => words token (polish_mem compiles token member)

namespace Table

variable {table : Table α} {text : String}

theorem compile_of_polish {polish : List String}
    (compiles : table.polish (tokenize text) = .ok polish) :
    table.compile text = .ok (joinStrings " " polish) := by
  rw [compile, compiles]
  rfl

theorem compile_of_error {e : Error} (fails : table.polish (tokenize text) = .error e) :
    table.compile text = .error e := by
  rw [compile, fails]
  rfl

theorem value?_of_compile {polish : String} (compiles : table.compile text = .ok polish) :
    table.value? text = table.evaluate polish := by
  rw [value?, compiles]

theorem value_of_compile {polish : String} (compiles : table.compile text = .ok polish) :
    table.value text = table.evaluateStrict polish := by
  rw [value, compiles]

end Table

/-- A text has the value that its Polish form stands for. -/
theorem value_of_denotes {table : Table α} {text : String} {tokens polish : List String} {value : α}
    (cut : tokenize text = tokens) (words : ∀ token ∈ tokens, IsWord token.toList)
    (compiles : table.polish tokens = .ok polish) (denotes : Denotes table polish [value]) :
    table.value? text = some value ∧ table.value text = .ok value := by
  subst cut
  have found := tokensOf_polish words compiles
  have compiled := Table.compile_of_polish compiles
  constructor
  · rw [Table.value?_of_compile compiled, Table.evaluate, found, denotes.stackOf]
  · rw [Table.value_of_compile compiled, Table.evaluateStrict, found, denotes.evaluateTokens]

end Switchboard.Expr
