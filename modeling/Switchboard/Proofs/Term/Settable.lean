import Switchboard.Proofs.Term.Bits
import Switchboard.Rule.Action

/-!
# Outputs that are read back as they have been set

A value that is delivered for an action comes back on the line of the output
and is read there by the output's own stream. Switches and plain signals, and
notifications whose two states differ, read from it just the bit that the
action was to bring about. A substitution does so if the value that stands for
off is not also the one that stands for on, neither as a value nor in print.
-/
namespace Switchboard

/-- The state of the output that an action aims at. -/
def Action.isOn : Action → Bool
  | .turnOn => true
  | .turnOff => false

theorem Action.of_decide {input output : Bool} {action : Action}
    (fires : Action.decide input output = some action) :
    input = action.isOn ∧ output = !action.isOn := by
  cases input <;> cases output
  · exact nomatch fires
  · obtain rfl := Option.some.inj fires
    exact ⟨rfl, rfl⟩
  · obtain rfl := Option.some.inj fires
    exact ⟨rfl, rfl⟩
  · exact nomatch fires

/-- Where nothing is to be done, input and output are the same. -/
theorem Action.eq_of_decide {input output : Bool} (idle : Action.decide input output = none) :
    input = output := by
  cases input <;> cases output
  · rfl
  · exact nomatch idle
  · exact nomatch idle
  · rfl

namespace Json

theorem same_ofLiteral (literal : String) : (ofLiteral literal).same (ofLiteral literal) = true := by
  unfold ofLiteral
  split
  · rfl
  · exact beq_self_eq_true _
  · exact beq_self_eq_true _
  · exact beq_self_eq_true _
  · exact beq_self_eq_true _

/-- The value of a literal matches the literal. -/
theorem matches_ofLiteral (literal : String) :
    (ofLiteral literal).matchesLiteral literal = true := by
  rw [matchesLiteral, same_ofLiteral, Bool.true_or]

end Json

namespace Term

open Switchboard.Stream

/-- Outputs that can be told to be on or off by what has been delivered. -/
def Settable : Term → Prop
  | .off | .on | .signal _ (.compare ..) => False
  | .switch .. | .signal _ .present => True
  | .signal _ (.substitute onValue offValue) =>
    (Json.ofLiteral offValue).matchesLiteral onValue = false
  | .notification _ onState offState _ _ =>
    ∃ raised cleared, onState = some raised ∧ offState = some cleared ∧ raised ≠ cleared

theorem Settable.signal {term : Term} (settable : term.Settable) : term.path? ≠ none := by
  cases term with
  | off => exact settable.elim
  | on => exact settable.elim
  | switch bank channel => cases bank <;> exact nofun
  | notification => exact nofun
  | signal => exact nofun

/-- What is read from the value of a notification is whether its state is the one of being raised. -/
theorem isRaised_notificationValue (raised state : String) (message : Option String)
    (methods : List String) (action : Action) :
    isRaised (some raised) (notificationValue message (some state) methods action) =
      (state == raised) := by
  have here : (notificationValue message (some state) methods action).member? "state" =
      some (.string state) := by
    have message_first : ¬"state" < "message" ∧ ¬"method" < "message" ∧ "method" < "state" := by
      decide
    have apart : "state" ≠ "message" ∧ "method" ≠ "message" := by decide
    simp only [notificationValue, Json.ofMembers, List.foldl_cons, List.foldl_nil,
      Json.insertMember, if_neg message_first.1, if_neg message_first.2.1,
      if_pos message_first.2.2, if_neg apart.1, if_neg apart.2]
    rfl
  have counts : (notificationValue message (some state) methods action).truthy = true := rfl
  rw [isRaised, here, counts, Bool.true_and]
  rfl

/-- What a term reads from the value that it gives for an action. -/
def readback : Term → Action → Option Bool
  | .off, _ | .on, _ => none
  | .switch .., action | .signal _ .present, action => some action.isOn
  | .notification .., .turnOn | .signal _ (.substitute ..), .turnOn => some true
  | .notification _ _ none _ _, .turnOff => none
  | .notification _ onState (some offState) _ _, .turnOff => some (onState.all (offState == ·))
  | .signal _ (.substitute onValue offValue), .turnOff =>
    some ((Json.ofLiteral offValue).matchesLiteral onValue)
  | .signal _ (.compare comparator operand), action =>
    some (comparator.test (plainValue action) operand)

/-- Any notification at all raises a term that names no state for being raised. -/
theorem isRaised_none (state : Option String) (message : Option String) (methods : List String)
    (action : Action) : isRaised none (notificationValue message state methods action) = true := rfl

theorem bit?_plainValue (action : Action) : (plainValue action).bit? = some action.isOn := by
  cases action <;> rfl

/-- What is delivered for an action is read as `readback` says. -/
theorem reading_output {term : Term} {action : Action} {value : Json}
    (delivers : term.output action = .ok (some value)) :
    term.reading value = term.readback action := by
  cases term with
  | off => exact nomatch delivers
  | on => exact nomatch delivers
  | switch =>
    cases delivers
    exact bit?_plainValue action
  | notification path onState offState message methods =>
    cases action with
    | turnOn =>
      cases delivers
      cases onState with
      | none => exact congrArg some (isRaised_none ..)
      | some raised =>
        rw [reading, isRaised_notificationValue, beq_self_eq_true]
        rfl
    | turnOff =>
      cases offState with
      | none => exact nomatch delivers
      | some cleared =>
        cases delivers
        cases onState with
        | none => exact congrArg some (isRaised_none ..)
        | some raised =>
          rw [reading, isRaised_notificationValue]
          rfl
  | signal path test =>
    cases test with
    | present =>
      cases action <;> cases delivers <;> rfl
    | compare =>
      cases action <;> cases delivers <;> rfl
    | substitute onValue offValue =>
      cases action with
      | turnOn =>
        cases delivers
        rw [reading, substituted?, if_pos (Json.matches_ofLiteral onValue)]
        rfl
      | turnOff =>
        cases delivers
        rw [reading, substituted?, readback]
        cases (Json.ofLiteral offValue).matchesLiteral onValue with
        | true => rfl
        | false => rw [if_neg Bool.false_ne_true, if_pos (Json.matches_ofLiteral offValue)]

/-- What is delivered for an action is read back as the state that the action aims at. -/
theorem Settable.reads {term : Term} (settable : term.Settable) (action : Action) :
    ∃ value, term.output action = .ok (some value) ∧ term.reading value = some action.isOn := by
  have back : ∃ value, term.output action = .ok (some value) ∧
      term.readback action = some action.isOn := by
    cases term with
    | off => exact settable.elim
    | on => exact settable.elim
    | switch => exact ⟨plainValue action, rfl, rfl⟩
    | notification path onState offState message methods =>
      obtain ⟨raised, cleared, rfl, rfl, differ⟩ := settable
      cases action with
      | turnOn => exact ⟨_, rfl, rfl⟩
      | turnOff => exact ⟨_, rfl, congrArg some (beq_eq_false_iff_ne.mpr differ.symm)⟩
    | signal path test =>
      cases test with
      | present => exact ⟨plainValue action, by cases action <;> rfl, rfl⟩
      | compare => exact settable.elim
      | substitute onValue offValue =>
        cases action with
        | turnOn => exact ⟨_, rfl, rfl⟩
        | turnOff => exact ⟨_, rfl, congrArg some settable⟩
  obtain ⟨value, delivers, reads⟩ := back
  exact ⟨value, delivers, (reading_output delivers).trans reads⟩

/-- One more value on the line of a term. -/
theorem course_bits (bus : Bus) {term : Term} (signal : term.path? ≠ none)
    (feeds : List (Nat × Option Json)) (value : Json) :
    ((term.bits bus).course (feeds ++ [(0, some value)])).2 =
      ((term.bits bus).course feeds).2 ++ (term.reading value).toList := by
  rw [course_snoc]
  cases term with
  | off => exact absurd rfl signal
  | on => exact absurd rfl signal
  | switch => rfl
  | notification => rfl
  | signal path test => cases test <;> rfl

/-- The last bit after one more value on the line of a term. -/
theorem last_value (bus : Bus) {term : Term} (signal : term.path? ≠ none)
    (feeds : List (Nat × Option Json)) (value : Json) :
    (term.stream bus).last (feeds ++ [(0, some value)]) =
      (term.reading value).or ((term.stream bus).last feeds) := by
  rw [stream, last_tap, last_distinct, last_tap, last_distinct, last, last,
    course_bits bus signal]
  cases term.reading value with
  | none => simp
  | some b => simp

end Term

end Switchboard
