import Mathlib.Data.Fintype.Option
import Switchboard.Proofs.Engine.Reception
import Switchboard.Proofs.Signal.Amounts

/-!
# What numbers of one amount give

Switches, plain signals and comparisons with a number go by the amount of a
number only. A substitution goes by its literals first, and a literal is
matched by whole numbers or by numbers with a fraction, but not by both. Where
one of its literals stands for the amount, the bit of the other kind of number
is left to chance: it is the same only where the amount is itself the bit that
the literal stands for.
-/
namespace Switchboard

open Json

namespace Term

/-- Terms that go by the amounts of numbers. -/
def Weighs : Term → Prop
  | .switch .. | .signal _ .present => True
  | .signal _ (.compare _ operand) => numberOfText? operand ≠ none
  | _ => False

theorem Weighs.reading_eq {term : Term} (weighs : term.Weighs) {a b : Json} {units : Int}
    (one : Amount a units) (other : Amount b units) : term.reading a = term.reading b := by
  have bits : a.bit? = b.bit? := one.bit?_eq.trans other.bit?_eq.symm
  cases term with
  | off => exact weighs.elim
  | on => exact weighs.elim
  | notification => exact weighs.elim
  | switch => exact bits
  | signal path test =>
    cases test with
    | present => exact bits
    | substitute => exact weighs.elim
    | compare comparator operand =>
      obtain ⟨y, number⟩ := Option.ne_none_iff_exists'.mp weighs
      show some (comparator.test a operand) = some (comparator.test b operand)
      rw [Comparator.test_of_order (one.order?_eq number),
        Comparator.test_of_order (other.order?_eq number)]

/--
Two literals do not tell two values apart that have the same bit: neither stands for one of the
values, or the first one stands for neither of them and they are the bit that the second one means,
or they are the bit that the first one means, it stands for one of them and the second one does not
stand for the other.
-/
def Overlooks (onValue offValue : String) (a b : Json) : Prop :=
  (∀ value ∈ [a, b], ∀ literal ∈ [onValue, offValue], value.matchesLiteral literal = false) ∨
    (a.bit? = some false ∧ ∀ value ∈ [a, b], value.matchesLiteral onValue = false) ∨
    (a.bit? = some true ∧
      (a.matchesLiteral onValue = true ∧ b.matchesLiteral offValue = false ∨
        b.matchesLiteral onValue = true ∧ a.matchesLiteral offValue = false))

/-- A substitution reads numbers of one amount alike only if it overlooks their kinds. -/
theorem substituted?_eq_iff {onValue offValue : String} {a b : Json} {units : Int}
    (one : Amount a units) (other : Amount b units) :
    substituted? onValue offValue a = substituted? onValue offValue b ↔
      SameKind a b ∨ Overlooks onValue offValue a b := by
  have bits : a.bit? = b.bit? := one.bit?_eq.trans other.bit?_eq.symm
  by_cases kind : SameKind a b
  · have alike : substituted? onValue offValue a = substituted? onValue offValue b := by
      rw [substituted?, substituted?, matches_congr one other kind, matches_congr one other kind, bits]
    exact ⟨fun _ => .inl kind, fun _ => alike⟩
  · rw [or_iff_right kind]
    have on_either := not_both_match one other kind onValue
    have off_either := not_both_match one other kind offValue
    -- What is left to look at: which of the values match which literals, and their common bit.
    unfold substituted? Overlooks
    simp only [List.forall_mem_cons, List.not_mem_nil, false_implies, implies_true, and_true, bits]
    generalize a.matchesLiteral onValue = first, b.matchesLiteral onValue = second,
      a.matchesLiteral offValue = third, b.matchesLiteral offValue = fourth,
      b.bit? = bit at on_either off_either ⊢
    revert first second third fourth bit
    decide

end Term

namespace Engine

variable {ς : Type}

/--
What publishing a number on the path of a term gives to whoever listens to the term, after any
other publications: the number's own bit, if it has one and that has not been heard last. Numbers of
one amount have the same bit for every switch, every plain signal and every comparison with a
number. For a substitution they have it if both are whole or both have a fraction, and otherwise
just where the literals overlook the difference.
-/
theorem amount_gives_bit (sink : Sink ς) (remembered : ς) (logs : Option RuleLog.Site) (term : Term)
    (signal : term.path? ≠ none) {a b : Json} {units : Int} (one : Amount a units)
    (other : Amount b units) (before between : List (String × Json)) (listener : Bool → PlantScript ς)
    (passive : ∀ bit, (listener bit).Quiet (InGeneration 0)) :
    (∃ engine heard, (Engine.new sink remembered logs).Publishes before engine ∧
      (engine.touch [term.path]).Hears (term.stream engine.plant.bus) listener between heard ∧
      ∀ value, (engine.touch [term.path]).Hears (term.stream engine.plant.bus) listener
        (between ++ [(term.path, value)]) (Term.hearing heard (term.reading value))) ∧
    (term.Weighs → term.reading a = term.reading b) ∧
    ∀ path onValue offValue, term = .signal path (.substitute onValue offValue) →
      (term.reading a = term.reading b ↔ SameKind a b ∨ Term.Overlooks onValue offValue a b) := by
  refine ⟨?_, fun weighs => weighs.reading_eq one other, ?_⟩
  · rw [← within_true] at passive
    obtain ⟨_, engine, published, told⟩ := (Told.start sink remembered logs).publish before
    rw [List.nil_append] at told
    have same : engine.plant.bus.generation = 0 := told.rest.passive.holds.1
    have touched := told.touch [term.path]
    refine ⟨engine, _, published, touched.hears_term _ same term passive between, fun value => ?_⟩
    have hears := touched.hears_term _ same term passive (between ++ [(term.path, value)])
    have last : Event.valuesAt term.path (between ++ [(term.path, value)]) =
        Event.valuesAt term.path between ++ [value] := by
      rw [Event.valuesAt_append]
      simp [Event.valuesAt]
    rwa [last, Term.received_snoc signal] at hears
  · rintro path onValue offValue rfl
    exact Term.substituted?_eq_iff one other

/-- A substitution for 2000 that takes it for on if it is whole, and for nothing otherwise. -/
theorem two_thousand_told_apart : ∃ term engine heard,
    Term.ofText? "p:2000:0" = some term ∧
      (Engine.new Outlet.sink (.limited none "" false) none).Publishes [] engine ∧
      (engine.touch ["p"]).Hears (term.stream engine.plant.bus) (fun _ => .done) [] heard ∧
      (∀ value, (engine.touch ["p"]).Hears (term.stream engine.plant.bus) (fun _ => .done)
        [("p", value)] (Term.hearing heard (term.reading value))) ∧
      term.reading (.int 2000) = some true ∧ term.reading (.float (.ofNat 2000)) = none ∧
      ¬Term.Overlooks "2000" "0" (.int 2000) (.float (.ofNat 2000)) := by
  have whole : Amount (.int 2000) (2000 * unitsPerOne) :=
    .int (by decide) (fitsDigits_of_le (by decide))
  have place : (Binary64.ofNat 2000).position = 2000 * unitsPerOne :=
    Binary64.position_ofInt_of_le (n := 2000) (by decide)
  have fractional : Amount (.float (.ofNat 2000)) (2000 * unitsPerOne) := by
    rw [← place]
    exact .float _
  obtain ⟨⟨engine, heard, published, hears, more⟩, _, alike⟩ :=
    amount_gives_bit Outlet.sink (.limited none "" false) none
      (.signal "p" (.substitute "2000" "0")) nofun whole fractional [] [] (fun _ => .done)
      (fun _ => .done)
  have on : (Term.signal "p" (.substitute "2000" "0")).reading (.int 2000) = some true := by
    decide
  have nothing : (Term.signal "p" (.substitute "2000" "0")).reading (.float (.ofNat 2000)) = none := by
    decide +kernel
  refine ⟨_, engine, heard, by decide, published, hears, more, on, nothing, ?_⟩
  intro overlooks
  have same := (alike _ _ _ rfl).mpr (.inr overlooks)
  rw [on, nothing] at same
  exact nomatch same

end Engine

end Switchboard
