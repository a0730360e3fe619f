import Switchboard.Proofs.Engine.Gathering
import Switchboard.Proofs.Term.Comparison
import Switchboard.Proofs.Term.Grammar

/-!
# Six comparisons of one signal

The terms that compare the signal at a path with an operand, all heard at the
same time. Whatever has been published on the path last, if it is not null it
stands to the operand in one order, and what the six listeners have heard last
are the six answers to that order.
-/
namespace Switchboard

open Event Network Text

namespace Term

/-- A term that compares the signal at a path. -/
def IsComparison (term : Term) : Prop :=
  ∃ path comparator operand, term = .signal path (.compare comparator operand)

/-- How a comparison is written with all its parts. -/
def comparisonText (path : String) (comparator : Comparator) (operand : String) : String :=
  path ++ ":" ++ comparator.word ++ ":" ++ operand

theorem splitAt_word (comparator : Comparator) :
    splitAt ':' comparator.word = [comparator.word] := by
  cases comparator <;> decide

theorem splitAt_comparisonText (path : String) (comparator : Comparator) (operand : String) :
    splitAt ':' (comparisonText path comparator operand) =
      splitAt ':' path ++ comparator.word :: splitAt ':' operand := by
  have last := splitAt_between ':' (path ++ ":" ++ comparator.word) operand
  have first := splitAt_between ':' path comparator.word
  rw [splitAt_word] at first
  refine last.trans ?_
  rw [show path ++ ":" ++ comparator.word = path ++ String.singleton ':' ++ comparator.word from rfl,
    first, List.append_assoc]
  rfl

/-- Three parts around two marks are the three texts between which the marks have been put. -/
theorem parts_of_comparisonText {path operand first middle last : String}
    {comparator : Comparator}
    (parts : Parts ':' (comparisonText path comparator operand) [first, middle, last]) :
    first = path ∧ middle = comparator.word ∧ last = operand := by
  have cut := parts_iff.mp parts
  rw [splitAt_comparisonText] at cut
  obtain ⟨part, more, front⟩ := exists_parts ':' path
  obtain ⟨part', more', back⟩ := exists_parts ':' operand
  rw [parts_iff] at front back
  have number := congrArg List.length cut
  rw [front, back] at cut number
  simp only [List.length_append, List.length_cons, List.length_nil] at number
  -- Neither path nor operand is cut, for there are no more than three parts.
  obtain rfl : more = [] := List.eq_nil_of_length_eq_zero (by omega)
  obtain rfl : more' = [] := List.eq_nil_of_length_eq_zero (by omega)
  obtain ⟨rfl, rfl, rfl⟩ : part = first ∧ comparator.word = middle ∧ part' = last := by
    simpa using cut
  exact ⟨(eq_of_splitAt_eq front).symm, rfl, (eq_of_splitAt_eq back).symm⟩

/-- What is written as a comparison and read as one compares what is written there. -/
theorem eq_of_comparisonText {path operand : String} {comparator : Comparator} {term : Term}
    (found : ofText? (comparisonText path comparator operand) = some term)
    (compares : term.IsComparison) : term = .signal path (.compare comparator operand) := by
  obtain ⟨path', comparator', operand', rfl⟩ := compares
  cases written_of_ofText? found with
  | equal _ parts _ =>
    -- The short form has two parts only.
    have number := congrArg List.length ((splitAt_comparisonText ..).symm.trans (parts_iff.mp parts))
    have front := List.length_pos_iff.mpr (parts_iff.mpr (Eq.refl (splitAt ':' path))).some_part
    have back := List.length_pos_iff.mpr (parts_iff.mpr (Eq.refl (splitAt ':' operand))).some_part
    simp only [List.length_append, List.length_cons, List.length_nil] at number
    omega
  | comparison _ parts _ =>
    obtain ⟨rfl, word, rfl⟩ := parts_of_comparisonText parts
    have same := congrArg Comparator.ofWord? word
    rw [Comparator.ofWord?_word, Comparator.ofWord?_word] at same
    rw [Option.some.inj same]

/-- The last answer of a comparison is the answer for the last value. -/
theorem getLast?_received_compare (path : String) (comparator : Comparator) (operand : String)
    (before after : List Json) :
    ((Term.signal path (.compare comparator operand)).received before after).getLast? =
      (before ++ after).getLast?.map (comparator.test · operand) := by
  have reads (values : List Json) :
      values.filterMap (Term.signal path (.compare comparator operand)).reading =
        values.map (comparator.test · operand) :=
    congrFun List.filterMap_eq_map' values
  have signal : (Term.signal path (.compare comparator operand)).path? ≠ none :=
    Option.some_ne_none path
  rw [getLast?_received signal, bitAfter_signal signal, reads, ← getLast?_latest_append before after,
    ← List.getLast?_map]
  cases before.getLast? <;> rfl

end Term

namespace Engine

variable {ς : Type}

/--
Listeners are attached to comparisons of the signal at one path with one operand, in any order.
After every publication on the path, each of them has heard something; if the value is not null,
what they have heard last are the answers to one order, and if it is null, all of them have heard
last that it does not hold.
-/
theorem comparisons_form_one_order (sink : Sink ς) (remembered : ς) (logs : Option RuleLog.Site)
    (path operand : String) (terms : Comparator → Term)
    (decodes : ∀ c, Term.ofText? (Term.comparisonText path c operand) = some (terms c))
    (compares : ∀ c, (terms c).IsComparison) (before : List (String × Json))
    (seats : List Comparator) (listener : Comparator → Bool → PlantScript ς)
    (passive : ∀ c b, (listener c b).Quiet (InGeneration 0)) :
    ∃ engine, (Engine.new sink remembered logs).Publishes before engine ∧
      ∀ after, ∃ heard : Comparator → List Bool,
        (engine.touch [path]).HearTogether
          (seats.map fun c => ((terms c).stream engine.plant.bus, listener c)) after
          (seats.map heard) ∧
        (∀ value, (Event.valuesAt path (before ++ after)).getLast? = some value → value ≠ .null →
          ∃ last, (∀ c, (heard c).getLast? = some (last c)) ∧ Comparator.OneOrder last) ∧
        ((Event.valuesAt path (before ++ after)).getLast? = some .null →
          ∀ c, (heard c).getLast? = some false) := by
  rw [← within_true] at passive
  obtain ⟨_, engine, published, told⟩ := (Told.start sink remembered logs).publish before
  rw [List.nil_append] at told
  have same : engine.plant.bus.generation = 0 := told.rest.passive.holds.1
  have touched := told.touch [path]
  refine ⟨engine, published, fun after => ?_⟩
  have shape : ∀ c, terms c = .signal path (.compare c operand) := fun c =>
    Term.eq_of_comparisonText (decodes c) (compares c)
  -- What each listener hears.
  have latest := touched.rest.latest touched.sends
  have received (c : Comparator) := Term.stream_received engine.plant.bus (terms c)
    (onLines 0 before) (onLines 0 after) latest
  have heard := touched.hear_together
    (seats.map fun c => ((terms c).stream engine.plant.bus, listener c))
    (List.forall_mem_map.mpr fun c _ => passive c) after
  rw [List.map_map, Function.comp_def, funext received] at heard
  refine ⟨_, heard, ?_⟩
  -- What each of them has heard last.
  have answers (c : Comparator) :
      ((terms c).received (Event.valuesAt (engine.plant.bus.line (terms c).path) (onLines 0 before))
        (Event.valuesAt (engine.plant.bus.line (terms c).path) (onLines 0 after))).getLast? =
        (Event.valuesAt path (before ++ after)).getLast?.map (c.test · operand) := by
    rw [Bus.line, same, shape, valuesAt_onLines, valuesAt_onLines, Term.getLast?_received_compare,
      Event.valuesAt_append]
    rfl
  constructor
  · intro value last some_value
    refine ⟨(Comparator.test · value operand), fun c => ?_, Comparator.oneOrder_test some_value _⟩
    rw [answers, last]
    rfl
  · intro last c
    rw [answers, last, Option.map_some, Comparator.test_null]

/-- A number and a text beside an operand that is not finite as a number, and then null. -/
theorem comparisons_with_inf : ∃ engine heard last,
    (Engine.new Outlet.sink (.limited none "" false) none).Publishes [] engine ∧
      (engine.touch ["p"]).HearTogether
        (Comparator.all.map fun c =>
          ((Term.signal "p" (.compare c "inf")).stream engine.plant.bus, fun _ => .done))
        [("p", .null), ("p", .float (.ofNat 7)), ("q", .null)] (Comparator.all.map heard) ∧
      (∀ c, (heard c).getLast? = some (last c)) ∧ Comparator.OneOrder last := by
  obtain ⟨engine, published, all⟩ :=
    comparisons_form_one_order Outlet.sink (.limited none "" false) none "p" "inf"
      (fun c => .signal "p" (.compare c "inf")) (by intro c; cases c <;> decide)
      (fun c => ⟨_, _, _, rfl⟩) [] Comparator.all (fun _ _ => .done) fun _ _ => .done
  obtain ⟨heard, together, ordered, _⟩ := all [("p", .null), ("p", .float (.ofNat 7)), ("q", .null)]
  obtain ⟨last, answers, one⟩ := ordered (.float (.ofNat 7)) rfl nofun
  exact ⟨engine, heard, last, published, together, answers, one⟩

end Engine

end Switchboard
