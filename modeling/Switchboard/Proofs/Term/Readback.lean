import Switchboard.Proofs.Term.Settable

/-!
# Literals in print

A value matches a literal as a value or in print. In print a number may be the
literal of another number, if reading its text back does not give the number
again. Where it does, what matches in print matches as a value as well, so
that a substitution whose literals stand for different values tells them
apart.
-/
namespace Switchboard

namespace Json

/-- A number, with or without a fraction. -/
def isNumber : Json → Bool
  | .int _ | .float _ => true
  | _ => false

/-- Whether reading the text of a value gives the value back. -/
def readsBack (value : Json) : Bool := (ofText? value.text).any value.same

/-- What a literal may stand for. -/
theorem ofLiteral_cases (literal : String) :
    ofLiteral literal = .null ∨ (∃ b, ofLiteral literal = .bool b) ∨
      (ofLiteral literal).isNumber = true ∨ ofLiteral literal = .string literal := by
  unfold ofLiteral
  split
  · exact .inl rfl
  · exact .inr (.inl ⟨_, rfl⟩)
  · exact .inr (.inr (.inl rfl))
  · exact .inr (.inr (.inl rfl))
  · exact .inr (.inr (.inr rfl))

/-- The text of a number is a literal that stands for it. -/
theorem same_ofLiteral_text {value : Json} (number : value.isNumber = true)
    (back : value.readsBack = true) : value.same (ofLiteral value.text) = true := by
  obtain ⟨other, read, same⟩ := (Option.any_eq_true _ _).mp back
  rw [ofLiteral, read]
  cases value with
  | int => cases other <;> exact same
  | float => cases other <;> exact same
  | _ => exact nomatch number

/-- The text of a literal's value is a literal for the same value. -/
theorem same_ofLiteral_plainText {literal : String}
    (back : (ofLiteral literal).isNumber = true → (ofLiteral literal).readsBack = true) :
    (ofLiteral literal).same (ofLiteral (ofLiteral literal).plainText) = true := by
  rcases ofLiteral_cases literal with null | ⟨b, bool⟩ | number | string
  · rw [null]
    decide
  · rw [bool]
    cases b <;> decide
  · have same := same_ofLiteral_text number (back number)
    generalize ofLiteral literal = value at number same ⊢
    cases value with
    | int => exact same
    | float => exact same
    | _ => exact nomatch number
  · have text : (ofLiteral literal).plainText = literal := by rw [string, plainText]
    rw [text]
    exact same_ofLiteral literal

/-- Its value matches no literals in print but those that it matches as a value. -/
theorem matchesLiteral_ofLiteral {literal : String}
    (back : (ofLiteral literal).isNumber = true → (ofLiteral literal).readsBack = true)
    (other : String) :
    (ofLiteral literal).matchesLiteral other = (ofLiteral literal).same (ofLiteral other) := by
  rw [matchesLiteral]
  by_cases printed : (ofLiteral literal).plainText = other
  · rw [← printed, same_ofLiteral_plainText back, Bool.true_or]
  · rw [beq_eq_false_iff_ne.mpr printed, Bool.or_false]

end Json

namespace Term

/-- Outputs whose values for an action are read as that action, as far as their literals go. -/
def Faithful : Term → Action → Prop
  | .off, _ | .on, _ | .signal _ (.compare ..), _ => False
  | .switch .., _ | .signal _ .present, _ => True
  | .notification .., .turnOn | .signal _ (.substitute ..), .turnOn => True
  | .notification .., .turnOff => False
  | .signal _ (.substitute onValue offValue), .turnOff =>
    (Json.ofLiteral offValue).same (Json.ofLiteral onValue) = false ∧
      ((Json.ofLiteral offValue).isNumber = true → (Json.ofLiteral offValue).readsBack = true)

variable {term : Term} {action : Action}

theorem Faithful.signal (faithful : term.Faithful action) : term.path? ≠ none := by
  cases term with
  | off => exact faithful.elim
  | on => exact faithful.elim
  | switch bank channel => cases bank <;> exact nofun
  | notification => exact nofun
  | signal => exact nofun

theorem Faithful.delivers (faithful : term.Faithful action) :
    ∃ value, term.output action = .ok (some value) := by
  cases term with
  | off => exact faithful.elim
  | on => exact faithful.elim
  | switch => exact ⟨_, rfl⟩
  | notification =>
    cases action with
    | turnOn => exact ⟨_, rfl⟩
    | turnOff => exact faithful.elim
  | signal path test =>
    cases test with
    | present => exact ⟨plainValue action, by cases action <;> rfl⟩
    | compare => exact faithful.elim
    | substitute => cases action <;> exact ⟨_, rfl⟩

theorem Faithful.readback (faithful : term.Faithful action) :
    term.readback action = some action.isOn := by
  cases term with
  | off => exact faithful.elim
  | on => exact faithful.elim
  | switch => rfl
  | notification =>
    cases action with
    | turnOn => rfl
    | turnOff => exact faithful.elim
  | signal path test =>
    cases test with
    | present => rfl
    | compare => exact faithful.elim
    | substitute onValue offValue =>
      cases action with
      | turnOn => rfl
      | turnOff =>
        obtain ⟨differ, back⟩ := faithful
        exact congrArg some ((Json.matchesLiteral_ofLiteral back onValue).trans differ)

end Term

end Switchboard
