import Switchboard.Expr.Evaluate

/-!
# One table read as another

Tables over different values arrange a text in the same way if their operators
bind alike. Where the values of one table can be read as values of another and
the reading respects the operators, the evaluation over the second table is the
reading of the evaluation over the first. A value that cannot be read spoils
the whole.
-/
namespace Switchboard.Expr

universe u v

variable {α : Type u} {β : Type v} {read : α → Option β}

/-- Operators that compute the same, up to the reading. -/
inductive Application.ReadAs (read : α → Option β) : Application α → Application β → Prop where
  | unary {f : α → α} {g : β → β} (same : ∀ a, read (f a) = (read a).map g) :
      ReadAs read (.unary f) (.unary g)
  | binary {f : α → α → α} {g : β → β → β}
      (same : ∀ a b, read (f a b) = (read a).bind fun x => (read b).map (g x)) :
      ReadAs read (.binary f) (.binary g)

inductive Role.ReadAs (read : α → Option β) : Role α → Role β → Prop where
  | opening : ReadAs read .opening .opening
  | closing : ReadAs read .closing .closing
  | operand : ReadAs read .operand .operand
  | operator {one : Operator α} {other : Operator β}
      (precedence : other.precedence = one.precedence)
      (application : one.application.ReadAs read other.application) :
      ReadAs read (.operator one) (.operator other)

/-- A table and what becomes of it when its values are read. -/
structure Table.ReadAs (read : α → Option β) (source : Table α) (target : Table β) : Prop where
  role : ∀ token, (source.role token).ReadAs read (target.role token)
  resolve : ∀ token, target.resolve token = (source.resolve token).bind read

theorem Application.ReadAs.onStack {one : Application α} {other : Application β}
    (same : one.ReadAs read other) (stack : List α) :
    (one.onStack stack).mapM read = (stack.mapM read).map other.onStack := by
  cases same with
  | unary same =>
    match stack with
    | [] => rfl
    | a :: stack =>
      simp only [Application.onStack, List.mapM_cons, same]
      cases read a <;> cases stack.mapM read <;> rfl
  | binary same =>
    match stack with
    | [] => rfl
    | [a] =>
      simp only [Application.onStack, List.mapM_cons, List.mapM_nil]
      cases read a <;> rfl
    | a :: b :: stack =>
      simp only [Application.onStack, List.mapM_cons, same]
      cases read a <;> cases read b <;> cases stack.mapM read <;> rfl

namespace Table.ReadAs

variable {source : Table α} {target : Table β} (same : source.ReadAs read target)

include same

theorem shunt (state : Shunting) (token : String) :
    target.shunt state token = source.shunt state token := by
  have here := same.role token
  unfold Table.shunt
  generalize source.role token = one at here ⊢
  generalize target.role token = other at here ⊢
  cases here with
  | operator precedence => simp only [precedence]
  | _ => rfl

theorem shuntAll (state : Shunting) (tokens : List String) :
    target.shuntAll state tokens = source.shuntAll state tokens := by
  induction tokens generalizing state with
  | nil => rfl
  | cons token rest ih => simp only [Table.shuntAll, same.shunt, ih]

/-- Both tables give a text the same Polish form. -/
theorem compile (text : String) : target.compile text = source.compile text := by
  simp only [Table.compile, Table.polish, same.shuntAll]

theorem push (token : String) (stack : List α) :
    (stack.mapM read).bind (target.push token) = (source.push token stack).bind (·.mapM read) := by
  have here := same.role token
  have value := same.resolve token
  unfold Table.push
  generalize source.role token = one at here ⊢
  generalize target.role token = other at here ⊢
  cases here with
  | operator precedence application =>
    rw [Option.bind_some, application.onStack]
    cases stack.mapM read <;> rfl
  | _ =>
    rw [value]
    cases source.resolve token with
    | none => cases stack.mapM read <;> rfl
    | some a =>
      simp only [Option.bind_some, Option.map_some, List.mapM_cons]
      cases read a <;> cases stack.mapM read <;> rfl

theorem stackOf (tokens : List String) :
    target.stackOf tokens = (source.stackOf tokens).bind (·.mapM read) := by
  induction tokens with
  | nil => rfl
  | cons token rest ih =>
    simp only [Table.stackOf, ih]
    cases source.stackOf rest with
    | none => rfl
    | some stack => exact same.push token stack

theorem evaluate (text : String) : target.evaluate text = (source.evaluate text).bind read := by
  unfold Table.evaluate
  rw [same.stackOf]
  match source.stackOf (tokensOf text) with
  | none => rfl
  | some [] => rfl
  | some [a] =>
    simp only [Option.bind_some, List.mapM_cons, List.mapM_nil]
    cases read a <;> rfl
  | some (a :: b :: stack) =>
    simp only [Option.bind_some, List.mapM_cons]
    cases read a <;> cases read b <;> cases stack.mapM read <;> rfl

/-- The value over the second table is the reading of the value over the first. -/
theorem value? (text : String) : target.value? text = (source.value? text).bind read := by
  unfold Table.value?
  rw [same.compile]
  cases source.compile text with
  | error => rfl
  | ok polish => exact same.evaluate polish

end Table.ReadAs

/-- Tables of logic, one read as the other. -/
theorem Table.ReadAs.logic {negation : α → α} {conjunction disjunction : α → α → α}
    {resolve : String → Option α} {negation' : β → β} {conjunction' disjunction' : β → β → β}
    (negations : ∀ a, read (negation a) = (read a).map negation')
    (conjunctions : ∀ a b,
      read (conjunction a b) = (read a).bind fun x => (read b).map (conjunction' x))
    (disjunctions : ∀ a b,
      read (disjunction a b) = (read a).bind fun x => (read b).map (disjunction' x)) :
    (Table.logic negation conjunction disjunction resolve).ReadAs read
      (.logic negation' conjunction' disjunction' fun token => (resolve token).bind read) where
  role token := by
    unfold Table.role
    by_cases opens : token = openMark
    · rw [if_pos opens, if_pos opens]
      exact .opening
    · by_cases closes : token = closeMark
      · rw [if_neg opens, if_pos closes, if_neg opens, if_pos closes]
        exact .closing
      · rw [if_neg opens, if_neg closes, if_neg opens, if_neg closes]
        unfold Table.find? Table.logic
        by_cases isNot : token = "not"
        · subst isNot
          exact .operator rfl (.unary negations)
        · by_cases isAnd : token = "and"
          · subst isAnd
            exact .operator rfl (.binary conjunctions)
          · by_cases isOr : token = "or"
            · subst isOr
              exact .operator rfl (.binary disjunctions)
            · simp only [List.lookup_cons, List.lookup_nil, beq_eq_false_iff_ne.mpr isNot,
                beq_eq_false_iff_ne.mpr isAnd, beq_eq_false_iff_ne.mpr isOr]
              exact .operand
  resolve _ := rfl

end Switchboard.Expr
