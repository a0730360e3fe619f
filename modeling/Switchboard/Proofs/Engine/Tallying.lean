import Switchboard.Proofs.Engine.Guest

/-!
# What becomes of one rule's actions

Whether an output gives a value for an action can be told from its kind. One
with a path always does, unless it is a notification that is to be switched
off and has no off state. So the tally of a rule and the number of its offers
follow from the actions that it has fired. A constant has no path, and a rule
that drives one leaves an error behind and nothing else.
-/
namespace Switchboard

open Network

variable {ς : Type}

namespace Term

variable {term : Term}

/-- Where there is a path, an action gives a value or nothing to deliver. -/
theorem output_ok (driven : term.path? ≠ none) (action : Action) :
    ∃ value, term.output action = .ok value := by
  cases term with
  | off | on => exact absurd rfl driven
  | switch => exact ⟨_, rfl⟩
  | notification _ _ offState =>
    cases action with
    | turnOn => exact ⟨_, rfl⟩
    | turnOff => cases offState <;> exact ⟨_, rfl⟩
  | signal _ test => cases test <;> cases action <;> exact ⟨_, rfl⟩

theorem output_constant (constant : term.path? = none) (action : Action) :
    term.output action = .error (.badOutputType term.kind) := by
  cases term with
  | off | on => rfl
  | switch bank => cases bank <;> cases constant
  | notification | signal => cases constant

/-- Only a notification without an off state has nothing to be switched off to. -/
theorem output_value (driven : term.path? ≠ none)
    (sided : ∀ path onState message methods,
      term ≠ .notification path onState none message methods) (action : Action) :
    ∃ value, term.output action = .ok (some value) := by
  cases term with
  | off | on => exact absurd rfl driven
  | switch => exact ⟨_, rfl⟩
  | notification _ _ offState =>
    cases action with
    | turnOn => exact ⟨_, rfl⟩
    | turnOff =>
      cases offState with
      | none => exact absurd rfl (sided _ _ _ _)
      | some => exact ⟨_, rfl⟩
  | signal _ test => cases test <;> cases action <;> exact ⟨_, rfl⟩

end Term

theorem Action.length_eq (fired : List Action) :
    fired.length = fired.count .turnOn + fired.count .turnOff := by
  induction fired with
  | nil => rfl
  | cons action rest ih => cases action <;> simp [ih] <;> omega

/-- Firings count actions, and remember the last one. -/
theorem Tally.foldl_count (fired : List Action) :
    fired.foldl Tally.count .zero =
      ⟨(fired.getLast?.map RuleState.after).getD .inactive, fired.count .turnOn,
        fired.count .turnOff⟩ := by
  induction fired using List.reverseRecOn with
  | nil => rfl
  | append_singleton before last ih =>
    rw [List.foldl_append, ih]
    cases last <;> simp [Tally.count, RuleState.after, List.count_append]

namespace Drive

variable (drive : Drive)

/-- The tally of a rule that has fired some actions. -/
def tally (fired : List Action) : Tally :=
  fired.foldl (fun tally action => drive.counted action tally) .zero

/-- What the records say of a rule that has fired some actions. -/
structure Accounts (fired : List Action) (tally : Tally) : Prop where
  /-- The counters are the numbers of actions, and the state is the last action. -/
  counted : drive.output.path? ≠ none → tally =
    ⟨(fired.getLast?.map RuleState.after).getD .inactive, fired.count .turnOn,
      fired.count .turnOff⟩
  state : tally.state = .inactive ↔ tally.onCount = 0 ∧ tally.offCount = 0
  /-- One offer is made for each action, -/
  offered : drive.output.path? ≠ none →
    (∀ path onState message methods,
      drive.output ≠ .notification path onState none message methods) →
    (fired.flatMap drive.offers).length = tally.onCount + tally.offCount
  /-- or, where there is nothing to be switched off to, for each that switches on. -/
  raised : ∀ path onState message methods,
    drive.output = .notification path onState none message methods →
    (fired.flatMap drive.offers).length = tally.onCount
  constant : drive.output.path? = none → tally = .zero ∧ fired.flatMap drive.offers = []

variable {drive}

theorem counted_driven (driven : drive.output.path? ≠ none) (action : Action) (tally : Tally) :
    drive.counted action tally = tally.count action := by
  obtain ⟨value, gives⟩ := Term.output_ok driven action
  rw [counted, gives]

theorem tally_driven (driven : drive.output.path? ≠ none) (fired : List Action) :
    drive.tally fired = ⟨(fired.getLast?.map RuleState.after).getD .inactive,
      fired.count .turnOn, fired.count .turnOff⟩ := by
  rw [← Tally.foldl_count, tally]
  congr 1
  funext tally action
  exact counted_driven driven action tally

theorem tally_constant (constant : drive.output.path? = none) (fired : List Action) :
    drive.tally fired = .zero := by
  have same : (fun tally action => drive.counted action tally) = fun (tally : Tally) _ => tally := by
    funext tally action
    rw [counted, Term.output_constant constant]
  rw [tally, same]
  exact List.foldl_fixed _

/-- The state tells whether anything has been fired. -/
theorem inactive_iff (fired : List Action) : (drive.tally fired).state = .inactive ↔
    (drive.tally fired).onCount = 0 ∧ (drive.tally fired).offCount = 0 := by
  by_cases constant : drive.output.path? = none
  · rw [tally_constant constant]
    exact ⟨fun _ => ⟨rfl, rfl⟩, fun _ => rfl⟩
  · rw [tally_driven constant]
    rcases List.eq_nil_or_concat fired with rfl | ⟨before, last, rfl⟩
    · simp
    · cases last <;> simp [RuleState.after]

theorem accounts (drive : Drive) (fired : List Action) :
    drive.Accounts fired (drive.tally fired) where
  counted driven := tally_driven driven fired
  state := inactive_iff fired
  offered driven sided := by
    have one (action : Action) : (drive.offers action).length = 1 := by
      obtain ⟨value, gives⟩ := Term.output_value driven sided action
      rw [offers, gives]
      rfl
    rw [tally_driven driven, List.length_flatMap, ← Action.length_eq]
    simp [one]
  raised path onState message methods shape := by
    have driven : drive.output.path? ≠ none := by simp [shape, Term.path?]
    rw [tally_driven driven]
    induction fired with
    | nil => rfl
    | cons action rest ih =>
      cases action <;> simp_all [offers, Term.output]
  constant constant := by
    refine ⟨tally_constant constant fired, List.flatMap_eq_nil_iff.mpr fun action _ => ?_⟩
    rw [offers, Term.output_constant constant]

end Drive

end Switchboard
