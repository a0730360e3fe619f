import Switchboard.Proofs.Expr.Polish

/-!
# What the evaluation from the right skips

Taken from the right, an operator that finds too few values is passed over.
The tokens that are kept have all their operands, so they stand for the values
that are on the stack in the end, and the evaluation from the left finds one
value in them exactly when one value is left. Where the evaluation from the
left succeeds on all tokens, none is skipped.
-/
namespace Switchboard.Expr

open Switchboard.Text

universe u

variable {α : Type u}

namespace Table

/-- An operator that finds fewer values than it takes. -/
def skips (table : Table α) (token : String) (stack : List α) : Bool :=
  match table.role token with
  | .operator operator => stack.length < operator.application.arity
  | _ => false

/-- The tokens that are not skipped when all are taken from the right. -/
def kept (table : Table α) : List String → List String
  | [] => []
  | token :: rest =>
    match table.stackOf rest with
    | some stack => if table.skips token stack then table.kept rest else token :: table.kept rest
    | none => token :: table.kept rest

variable {table : Table α} {token : String} {tokens rest : List String} {stack : List α}

theorem kept_cons (values : table.stackOf rest = some stack) :
    table.kept (token :: rest) =
      if table.skips token stack then table.kept rest else token :: table.kept rest := by
  rw [kept, values]

theorem skips_name (names : table.Names token) (stack : List α) :
    table.skips token stack = false := by
  unfold skips
  split
  · rename_i operator role
    exact absurd role (names operator)
  · rfl

theorem skips_operator {operator : Operator α} (role : table.role token = .operator operator)
    (stack : List α) :
    table.skips token stack = decide (stack.length < operator.application.arity) := by
  rw [skips, role]

theorem skips_enough {operator : Operator α} (role : table.role token = .operator operator)
    (enough : operator.application.arity ≤ stack.length) : table.skips token stack = false := by
  rw [skips_operator role]
  exact decide_eq_false (Nat.not_lt.mpr enough)

theorem kept_subset (tokens : List String) : table.kept tokens ⊆ tokens := by
  induction tokens with
  | nil => exact List.Subset.refl []
  | cons token rest ih =>
    rw [kept]
    split
    · split
      · exact List.subset_cons_of_subset token ih
      · exact List.cons_subset_cons token ih
    · exact List.cons_subset_cons token ih

/-- The tokens that are kept stand for what is on the stack. -/
theorem denotes_kept (values : table.stackOf tokens = some stack) :
    Denotes table (table.kept tokens) stack := by
  induction tokens generalizing stack with
  | nil =>
    obtain rfl := Option.some.inj values
    exact .nil
  | cons token rest ih =>
    obtain ⟨below, values, pushed⟩ := Option.bind_eq_some_iff.mp values
    have later := ih values
    rw [kept_cons values]
    rcases table.names_or_operator token with names | ⟨operator, role⟩
    · rw [push_name names] at pushed
      obtain ⟨value, resolved, rfl⟩ := Option.map_eq_some_iff.mp pushed
      rw [skips_name names, if_neg Bool.false_ne_true]
      exact .operand names resolved later
    · rw [push, role] at pushed
      obtain rfl := Option.some.inj pushed
      rw [skips_operator role]
      obtain ⟨precedence, application, positive⟩ := operator
      -- An operator is skipped or applied by how many values there are.
      cases application with
      | unary f =>
        cases below with
        | nil => exact later
        | cons a below => exact .unary role later
      | binary f =>
        rcases below with _ | ⟨a, _ | ⟨b, below⟩⟩
        · exact later
        · exact later
        · exact .binary role later

/-- If all names have values, the evaluation from the right comes to its end. -/
theorem exists_stackOf
    (known : ∀ token ∈ tokens, table.Names token → table.resolve token ≠ none) :
    ∃ stack, table.stackOf tokens = some stack := by
  induction tokens with
  | nil => exact ⟨[], rfl⟩
  | cons token rest ih =>
    obtain ⟨here, known⟩ := List.forall_mem_cons.mp known
    obtain ⟨stack, values⟩ := ih known
    rw [stackOf, values, Option.bind_some]
    rcases table.names_or_operator token with names | ⟨operator, role⟩
    · obtain ⟨value, resolved⟩ := Option.ne_none_iff_exists'.mp (here names)
      exact ⟨value :: stack, by rw [push_name names, resolved]; rfl⟩
    · exact ⟨operator.application.onStack stack, by rw [push, role]⟩

/-- A name without a value spoils the evaluation from the right. -/
theorem stackOf_unresolved (member : token ∈ tokens) (names : table.Names token)
    (unresolved : table.resolve token = none) : table.stackOf tokens = none := by
  induction tokens with
  | nil => exact nomatch member
  | cons first rest ih =>
    rw [stackOf]
    rcases List.mem_cons.mp member with rfl | member
    · cases table.stackOf rest with
      | none => rfl
      | some stack =>
        rw [Option.bind_some, push_name names, unresolved]
        rfl
    · rw [ih member]
      rfl

theorem evaluate_eq_some_iff {text : String} {value : α} :
    table.evaluate text = some value ↔ table.stackOf (tokensOf text) = some [value] := by
  unfold evaluate
  split
  · rename_i only values
    simp [values]
  · rename_i other
    simp only [reduceCtorEq, false_iff]
    exact other value

/-- What the evaluation from the left has read stands for the value that it has found. -/
theorem denotes_of_descend {fuel : Nat} {parent : String} {value : α} {values : List α}
    (found : table.descend fuel parent tokens = .ok (value, rest))
    (later : Denotes table rest values) : Denotes table tokens (value :: values) := by
  induction fuel generalizing parent tokens value values rest with
  | zero => cases found
  | succ fuel ih =>
    cases tokens with
    | nil => cases found
    | cons token tokens =>
      rw [descend] at found
      split at found
      · rename_i role
        split at found
        · rename_i first
          obtain ⟨rfl, rfl⟩ := Prod.mk.inj (Except.ok.inj found)
          exact .unary role (ih first later)
        · cases found
      · rename_i role
        split at found
        · cases found
        · rename_i first
          split at found
          · rename_i second
            obtain ⟨rfl, rfl⟩ := Prod.mk.inj (Except.ok.inj found)
            exact .binary role (ih first (ih second later))
          · cases found
      · rename_i not_unary not_binary
        split at found
        · rename_i resolved
          obtain ⟨rfl, rfl⟩ := Prod.mk.inj (Except.ok.inj found)
          refine .operand (fun operator role => ?_) resolved later
          obtain ⟨precedence, f | f, positive⟩ := operator
          · exact not_unary _ _ _ role
          · exact not_binary _ _ _ role
        · cases found

/-- The evaluation from the left succeeds exactly on what stands for one value. -/
theorem evaluateTokens_eq_ok_iff {value : α} :
    table.evaluateTokens tokens = .ok value ↔ Denotes table tokens [value] := by
  refine ⟨fun found => ?_, Denotes.evaluateTokens⟩
  unfold evaluateTokens at found
  split at found
  · exact nomatch found
  · split at found
    · rename_i only descended
      obtain rfl := Except.ok.inj found
      exact denotes_of_descend descended .nil
    · exact nomatch found
    · exact nomatch found

end Table

namespace Denotes

variable {table : Table α} {tokens : List String} {values : List α}

/-- Where every operator has its operands, none is skipped. -/
theorem kept (denotes : Denotes table tokens values) : table.kept tokens = tokens := by
  induction denotes with
  | nil => rfl
  | operand names _ later ih =>
    rw [Table.kept_cons later.stackOf, Table.skips_name names, if_neg Bool.false_ne_true, ih]
  | @unary _ _ _ _ _ a values role later ih =>
    have enough : 1 ≤ (a :: values).length := Nat.le_add_left 1 _
    rw [Table.kept_cons later.stackOf, Table.skips_enough role enough, if_neg Bool.false_ne_true, ih]
  | @binary _ _ _ _ _ a b values role later ih =>
    have enough : 2 ≤ (a :: b :: values).length := Nat.le_add_left 2 _
    rw [Table.kept_cons later.stackOf, Table.skips_enough role enough, if_neg Bool.false_ne_true, ih]

/-- All names have values. -/
theorem resolved (denotes : Denotes table tokens values) {token : String} (member : token ∈ tokens)
    (names : table.Names token) : table.resolve token ≠ none := by
  intro unresolved
  have nothing := Table.stackOf_unresolved member names unresolved
  exact nomatch nothing.symm.trans denotes.stackOf

end Denotes

/--
The two evaluations of a text in Polish form. A name without a value spoils both. Otherwise the one
from the right gives a value exactly when the one from the left gives it for the tokens that have
not been skipped. If the one from the left gives a value for the whole text, nothing is skipped and
the one from the right gives it too.
-/
theorem evaluations_agree (table : Table α) (text : String) :
    ((∃ token ∈ tokensOf text, table.Names token ∧ table.resolve token = none) →
      table.evaluate text = none ∧ ∃ e, table.evaluateStrict text = .error e) ∧
    ((∀ token ∈ tokensOf text, table.Names token → table.resolve token ≠ none) →
      ∀ value, table.evaluate text = some value ↔
        table.evaluateStrict (joinStrings " " (table.kept (tokensOf text))) = .ok value) ∧
    ∀ value, table.evaluateStrict text = .ok value →
      table.kept (tokensOf text) = tokensOf text ∧ table.evaluate text = some value := by
  refine ⟨?_, ?_, ?_⟩
  · rintro ⟨token, member, names, unresolved⟩
    refine ⟨?_, ?_⟩
    · rw [Table.evaluate, Table.stackOf_unresolved member names unresolved]
    · cases strict : table.evaluateStrict text with
      | error e => exact ⟨e, rfl⟩
      | ok value =>
        have denotes := Table.evaluateTokens_eq_ok_iff.mp strict
        exact absurd unresolved (denotes.resolved member names)
  · intro known value
    obtain ⟨stack, values⟩ := Table.exists_stackOf known
    have denotes := Table.denotes_kept values
    have found : tokensOf (joinStrings " " (table.kept (tokensOf text))) =
        table.kept (tokensOf text) :=
      tokensOf_joinStrings fun token member =>
        isWord_of_mem_tokensOf (table.kept_subset _ member)
    rw [Table.evaluate_eq_some_iff, values, Table.evaluateStrict, found,
      Table.evaluateTokens_eq_ok_iff, Option.some_inj]
    constructor
    · rintro rfl
      exact denotes
    · intro single
      exact Option.some.inj (denotes.stackOf.symm.trans single.stackOf)
  · intro value strict
    have denotes := Table.evaluateTokens_eq_ok_iff.mp strict
    exact ⟨denotes.kept, Table.evaluate_eq_some_iff.mpr denotes.stackOf⟩

/-- A disjunction that finds one value only is skipped. -/
theorem evaluations_agree_skipping :
    (Table.booleans fun _ => some true).kept (tokensOf "or not A") = ["not", "A"] ∧
      (Table.booleans fun _ => some true).evaluate "or not A" = some false ∧
      (Table.booleans fun _ => some true).evaluateStrict "not A" = .ok false := by
  have kept : (Table.booleans fun _ => some true).kept (tokensOf "or not A") = ["not", "A"] := rfl
  have strict : (Table.booleans fun _ => some true).evaluateStrict
      (joinStrings " " ["not", "A"]) = .ok false := rfl
  obtain ⟨_, same, _⟩ := evaluations_agree (Table.booleans fun _ => some true) "or not A"
  refine ⟨kept, (same (fun _ _ _ => Option.some_ne_none true) false).mpr ?_, strict⟩
  rw [kept]
  exact strict

end Switchboard.Expr
