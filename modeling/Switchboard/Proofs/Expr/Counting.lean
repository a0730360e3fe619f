import Switchboard.Proofs.Expr.Grammar

/-!
# How many values Polish tokens stand for

The tokens are counted from the right: a token that stands for a value adds
one, and an operator of two operands takes one away. If an operator finds fewer
values than it takes, there is no count. Tokens with a count of one are the
Polish form of a tree, and without a count there is nothing that they could
stand for.
-/
namespace Switchboard.Expr

universe u

variable {α : Type u}

namespace Table

variable {table : Table α} {token : String} {tokens : List String}

/-- The number of operands that a token takes. -/
def arity (table : Table α) (token : String) : Nat :=
  match table.role token with
  | .operator operator => operator.application.arity
  | _ => 0

theorem arity_operator {operator : Operator α} (role : table.role token = .operator operator) :
    table.arity token = operator.application.arity := by
  rw [arity, role]

/-- Every operator takes an operand. -/
theorem arity_pos {operator : Operator α} (role : table.role token = .operator operator) :
    1 ≤ table.arity token := by
  rw [arity_operator role]
  cases operator.application with
  | unary f => exact Nat.le_refl 1
  | binary f => exact Nat.le_succ 1

theorem arity_name (names : table.Names token) : table.arity token = 0 := by
  unfold arity
  split
  · rename_i operator role
    exact absurd role (names operator)
  · rfl

/-- The number of values that tokens in Polish form stand for. -/
def count (table : Table α) : List String → Option Nat
  | [] => some 0
  | token :: rest =>
    (table.count rest).bind fun n =>
      if table.arity token ≤ n then some (n + 1 - table.arity token) else none

theorem count_cons {n : Nat} (later : table.count tokens = some n) (token : String) :
    table.count (token :: tokens) =
      if table.arity token ≤ n then some (n + 1 - table.arity token) else none := by
  rw [count, later, Option.bind_some]

/-- What comes to the left does not help an operator that is short of values. -/
theorem count_append_none (short : table.count tokens = none) (before : List String) :
    table.count (before ++ tokens) = none := by
  induction before with
  | nil => exact short
  | cons token before ih =>
    rw [List.cons_append, count, ih, Option.bind_none]

/-- A token that is no parenthesis is an operand or an operator of one of the two kinds. -/
theorem token_cases (table : Table α) (solid : isSolid token = true) :
    (∃ name : table.Operand, token = name.token) ∨ (∃ sign : table.Unary, token = sign.token) ∨
      ∃ sign : table.Binary, token = sign.token := by
  rw [isSolid, Bool.and_eq_true_iff, bne_iff_ne, bne_iff_ne] at solid
  obtain ⟨open_free, close_free⟩ := solid
  cases found : table.find? token with
  | none =>
    have role : table.role token = .operand := by
      rw [Table.role, if_neg open_free, if_neg close_free, found]
    exact .inl ⟨⟨token, role⟩, rfl⟩
  | some operator =>
    have role : table.role token = .operator operator := by
      rw [Table.role, if_neg open_free, if_neg close_free, found]
    obtain ⟨precedence, f | f, positive⟩ := operator
    · exact .inr (.inl ⟨⟨token, precedence, f, positive, role⟩, rfl⟩)
    · exact .inr (.inr ⟨⟨token, precedence, f, positive, role⟩, rfl⟩)

theorem Operand.arity (name : table.Operand) : table.arity name.token = 0 :=
  arity_name (names_of_role name.role)

theorem Unary.arity (sign : table.Unary) : table.arity sign.token = 1 :=
  arity_operator sign.role

theorem Binary.arity (sign : table.Binary) : table.arity sign.token = 2 :=
  arity_operator sign.role

end Table

/-- As many values are there as have been counted. -/
theorem Denotes.count {table : Table α} {tokens : List String} {values : List α}
    (denotes : Denotes table tokens values) : table.count tokens = some values.length := by
  induction denotes with
  | nil => rfl
  | operand names _ _ ih =>
    rw [Table.count_cons ih, Table.arity_name names, if_pos (Nat.zero_le _)]
    rfl
  | @unary _ _ _ _ _ a values role _ ih =>
    have enough : 1 ≤ (a :: values).length := Nat.le_add_left 1 _
    rw [Table.count_cons ih, Table.arity_operator role, Application.arity, if_pos enough]
    rfl
  | @binary _ _ _ _ _ a b values role _ ih =>
    have enough : 2 ≤ (a :: b :: values).length := Nat.le_add_left 2 _
    rw [Table.count_cons ih, Table.arity_operator role, Application.arity, if_pos enough]
    rfl

namespace Grouping

variable {table : Table α} {tokens : List String}

/-- Tokens that have been counted are the Polish forms of as many trees. -/
theorem exists_trees (solid : ∀ token ∈ tokens, isSolid token = true) {n : Nat}
    (counted : table.count tokens = some n) :
    ∃ trees : List (Grouping table), trees.length = n ∧ trees.flatMap polish = tokens := by
  induction tokens generalizing n with
  | nil =>
    obtain rfl := Option.some.inj counted
    exact ⟨[], rfl, rfl⟩
  | cons token tokens ih =>
    obtain ⟨here, solid⟩ := List.forall_mem_cons.mp solid
    obtain ⟨m, later, taken⟩ := Option.bind_eq_some_iff.mp counted
    obtain ⟨trees, rfl, rfl⟩ := ih solid later
    obtain ⟨enough, left⟩ := Option.ite_none_right_eq_some.mp taken
    obtain rfl := Option.some.inj left
    rcases table.token_cases here with ⟨name, rfl⟩ | ⟨sign, rfl⟩ | ⟨sign, rfl⟩
    · rw [name.arity]
      exact ⟨.operand name :: trees, rfl, rfl⟩
    · rw [sign.arity] at enough ⊢
      match trees, enough with
      | inner :: trees, _ => exact ⟨.unary sign inner :: trees, rfl, rfl⟩
    · rw [sign.arity] at enough ⊢
      match trees, enough with
      | right :: left :: trees, _ =>
        refine ⟨.binary sign left right :: trees, rfl, ?_⟩
        rw [List.flatMap_cons, List.flatMap_cons, List.flatMap_cons, polish, List.cons_append,
          List.append_assoc]

theorem exists_tree (solid : ∀ token ∈ tokens, isSolid token = true)
    (counted : table.count tokens = some 1) : ∃ tree : Grouping table, tree.polish = tokens := by
  obtain ⟨trees, single, all⟩ := exists_trees solid counted
  obtain ⟨tree, rfl⟩ := List.length_eq_one_iff.mp single
  rw [List.flatMap_cons, List.flatMap_nil, List.append_nil] at all
  exact ⟨tree, all⟩

end Grouping

end Switchboard.Expr
