import Mathlib.Data.List.Destutter
import Switchboard.Proofs.Stream.Rounds
import Switchboard.Proofs.Network.Traffic
import Switchboard.Proofs.Term.Bits

/-!
# What is received of a term

All bits of a term's stream, told from the values of its signal alone. The last
value from before the subscription comes first, or what the term begins with
where there is none, and then all values that are published. Those that are no
bit for the term do not count, and of a bit that comes several times in a row
only the first is passed on. How the stream is put together makes no
difference: a stream that leaves repetitions out in its rounds leaves them out
of the whole.
-/
namespace Switchboard

namespace Stream

variable {κ ν ρ α β : Type}

theorem fresh_append (same : α → α → Bool) (passed : Option α) (values more : List α) :
    fresh same passed (values ++ more) =
      fresh same passed values ++ fresh same ((fresh same passed values).getLast?.or passed) more := by
  induction values generalizing passed with
  | nil => rfl
  | cons value values ih =>
    rw [List.cons_append, fresh, fresh]
    split
    · exact ih passed
    · rw [ih, List.cons_append, List.getLast?_cons]
      cases (fresh same (some value) values).getLast? <;> rfl

/-- Leaving repetitions out round by round is leaving them out of the whole. -/
theorem flatten_freshRounds (same : α → α → Bool) (passed : Option α) (rounds : List (List α)) :
    (freshRounds same passed rounds).flatten = fresh same passed rounds.flatten := by
  induction rounds generalizing passed with
  | nil => rfl
  | cons round rounds ih =>
    rw [freshRounds, List.flatten_cons, List.flatten_cons, ih, fresh_append]

/-- Of values that come in a row, only those are left that differ from the one before. -/
theorem cons_fresh [DecidableEq α] (passed : α) (values : List α) :
    passed :: fresh (fun before value => decide (before = value)) (some passed) values =
      values.destutter' (· ≠ ·) passed := by
  induction values generalizing passed with
  | nil => rfl
  | cons value values ih =>
    rw [fresh, Option.any_some]
    by_cases again : passed = value
    · rw [if_pos (decide_eq_true again), List.destutter'_cons_neg _ (not_not_intro again), ih]
    · rw [if_neg (by simpa using again), List.destutter'_cons_pos _ again, ih]

theorem destutter_toList_append [DecidableEq α] (first : Option α) (values : List α) :
    (first.toList ++ values).destutter (· ≠ ·) =
      first.toList ++ fresh (fun before value => decide (before = value)) first values := by
  cases first with
  | some passed => exact (cons_fresh passed values).symm
  | none =>
    cases values with
    | nil => rfl
    | cons value values =>
      rw [fresh, Option.any_none, if_neg Bool.false_ne_true]
      exact (cons_fresh value values).symm

/-- The last one stays, or another that is the same. -/
theorem getLast?_destutter [DecidableEq α] (values : List α) :
    (values.destutter (· ≠ ·)).getLast? = values.getLast? := by
  have from_first (passed : α) (values : List α) :
      (values.destutter' (· ≠ ·) passed).getLast? = (passed :: values).getLast? := by
    induction values generalizing passed with
    | nil => rfl
    | cons value values ih =>
      by_cases again : passed = value
      · rw [List.destutter'_cons_neg _ (not_not_intro again), ih, again, List.getLast?_cons_cons]
      · rw [List.destutter'_cons_pos _ again, List.getLast?_cons, ih, List.getLast?_cons_cons,
          List.getLast?_cons, Option.getD_some]
  cases values with
  | nil => rfl
  | cons value values => exact from_first value values

section Rounds

variable [DecidableEq κ] (now : κ → Option ν) (published : List (κ × ν))

theorem flatten_rounds_subject (key : κ) :
    ((subject key : Stream κ ν ρ ν).rounds now published).flatten = Event.valuesAt key published := by
  rw [rounds]
  induction published with
  | nil => rfl
  | cons pair published ih =>
    rw [List.map_cons, List.flatten_cons, ih, Event.valuesAt_cons]
    split <;> rfl

theorem flatten_rounds_constant (value : α) :
    ((constant value : Stream κ ν ρ α).rounds now published).flatten = [] := by
  rw [rounds, List.flatten_eq_nil_iff]
  intro round member
  obtain ⟨_, _, rfl⟩ := List.mem_map.mp member
  rfl

theorem flatten_rounds_filterMap (f : α → Option β) (source : Stream κ ν ρ α) :
    ((filterMap f source).rounds now published).flatten =
      (source.rounds now published).flatten.filterMap f :=
  List.filterMap_flatten.symm

/-- A stream that leaves repetitions out passes on what is left of all that its source gives. -/
theorem flatten_rounds_distinct (decEq : DecidableEq α) (source : Stream κ ν ρ α) :
    (((distinct decEq source).begins now).toList ++
        ((distinct decEq source).rounds now published).flatten) =
      ((source.begins now).toList ++ (source.rounds now published).flatten).destutter (· ≠ ·) := by
  rw [destutter_toList_append, rounds, begins, flatten_freshRounds]

end Rounds

end Stream

namespace Term

open Switchboard.Stream

/-- The bit to begin with. -/
def openingBit (term : Term) : Option Json → Option Bool
  | some value => term.reading value
  | none => term.fallback?

/-- All bits that come up, repetitions included. -/
def readings (term : Term) (current : Option Json) (later : List Json) : List Bool :=
  (term.openingBit current).toList ++ later.filterMap term.reading

/-- What is received of a term. A constant has its bit and nothing else. -/
def received (term : Term) (before after : List Json) : List Bool :=
  match term.path? with
  | some _ => (term.readings before.getLast? after).destutter (· ≠ ·)
  | none => term.fallback?.toList

theorem begins_bitsFromZero (line : Line) (read : Json → Option Bool) (now : Line → Option Json) :
    (bitsFromZero line read).begins now = read ((now line).getD (.int 0)) := rfl

theorem rounds_bitsFromZero (line : Line) (read : Json → Option Bool) (now : Line → Option Json)
    (published : List (Line × Json)) :
    ((bitsFromZero line read).rounds now published).flatten =
      (Event.valuesAt line published).filterMap read := by
  rw [bitsFromZero, flatten_rounds_filterMap, ← flatten_rounds_subject now published line]
  rfl

/-- Switches, plain signals and substitutions begin with what they read zero as. -/
theorem begins_bits (bus : Bus) {term : Term} (signal : term.path? ≠ none)
    (now : Line → Option Json) :
    (term.bits bus).begins now = term.openingBit (now (bus.line term.path)) := by
  cases term with
  | off => exact absurd rfl signal
  | on => exact absurd rfl signal
  | switch bank channel =>
    rw [bits, begins_bitsFromZero]
    cases now (bus.line (switch bank channel).path) <;> rfl
  | notification path onState offState message methods =>
    show some (((now (bus.line path)).bind fun value => some (isRaised onState value)).getD false) =
      (notification path onState offState message methods).openingBit (now (bus.line path))
    cases now (bus.line path) <;> rfl
  | signal path test =>
    cases test with
    | present =>
      rw [bits, begins_bitsFromZero]
      cases now (bus.line (Term.signal path .present).path) <;> rfl
    | substitute onValue offValue =>
      rw [bits, begins_bitsFromZero]
      cases now (bus.line (Term.signal path (.substitute onValue offValue)).path) <;> rfl
    | compare comparator operand =>
      show ((now (bus.line path)).bind fun value => some (comparator.test value operand)) =
        (Term.signal path (.compare comparator operand)).openingBit (now (bus.line path))
      cases now (bus.line path) <;> rfl

theorem rounds_bits (bus : Bus) {term : Term} (signal : term.path? ≠ none)
    (now : Line → Option Json) (published : List (Line × Json)) :
    ((term.bits bus).rounds now published).flatten =
      (Event.valuesAt (bus.line term.path) published).filterMap term.reading := by
  cases term with
  | off => exact absurd rfl signal
  | on => exact absurd rfl signal
  | switch => exact rounds_bitsFromZero _ _ now published
  | notification path onState offState message methods =>
    rw [← flatten_rounds_subject now published]
    exact flatten_rounds_filterMap now published _ _
  | signal path test =>
    cases test with
    | present => exact rounds_bitsFromZero _ _ now published
    | substitute => exact rounds_bitsFromZero _ _ now published
    | compare comparator operand =>
      rw [← flatten_rounds_subject now published]
      exact flatten_rounds_filterMap now published _ _

/-- The whole stream of a term is told from the values of its signal. -/
theorem stream_received (bus : Bus) (term : Term) (before after : List (Line × Json))
    {now : Line → Option Json}
    (latest : now = fun line => (Event.valuesAt line before).getLast?) :
    ((term.stream bus).begins now).toList ++ ((term.stream bus).rounds now after).flatten =
      term.received (Event.valuesAt (bus.line term.path) before)
        (Event.valuesAt (bus.line term.path) after) := by
  refine (flatten_rounds_distinct now after inferInstance (term.bits bus)).trans ?_
  rw [received]
  cases path : term.path? with
  | some path =>
    have signal : term.path? ≠ none := by
      rw [path]
      exact nofun
    rw [begins_bits bus signal, rounds_bits bus signal, latest]
    rfl
  | none =>
    cases term with
    | off =>
      rw [bits, flatten_rounds_constant]
      rfl
    | on =>
      rw [bits, flatten_rounds_constant]
      rfl
    | switch bank => cases bank <;> exact absurd path (Option.some_ne_none _)
    | notification => exact absurd path (Option.some_ne_none _)
    | signal => exact absurd path (Option.some_ne_none _)

/-- What is received last. -/
theorem getLast?_received {term : Term} (signal : term.path? ≠ none) (before after : List Json) :
    (term.received before after).getLast? = term.bitAfter before.getLast? after := by
  obtain ⟨path, there⟩ := Option.ne_none_iff_exists'.mp signal
  rw [received, there]
  dsimp only
  rw [getLast?_destutter, bitAfter_signal signal, readings]
  cases before.getLast? with
  | none => rfl
  | some value =>
    rw [if_neg (Option.some_ne_none value)]
    cases reads : term.reading value with
    | none => simp [openingBit, reads]
    | some bit => simp [openingBit, reads]

/-- What has been heard after one bit more: nothing new if the bit has been heard last. -/
def hearing (heard : List Bool) (bit : Option Bool) : List Bool :=
  heard ++ (bit.filter fun b => heard.getLast? ≠ some b).toList

theorem destutter_snoc (bits : List Bool) (bit : Option Bool) :
    (bits ++ bit.toList).destutter (· ≠ ·) = hearing (bits.destutter (· ≠ ·)) bit := by
  have whole (values : List Bool) := Stream.destutter_toList_append none values
  simp only [Option.toList_none, List.nil_append] at whole
  cases bit with
  | none => rw [hearing, Option.toList_none, List.append_nil, Option.filter_none, Option.toList_none,
      List.append_nil]
  | some bit =>
    rw [whole, whole, Option.toList_some, Stream.fresh_snoc, hearing, Option.or_none]
    cases last : (Stream.fresh (fun before value => decide (before = value)) none bits).getLast? with
    | none => simp [Option.filter]
    | some passed => by_cases same : passed = bit <;> simp [same, Option.filter]

/-- One value more on the line of a term. -/
theorem received_snoc {term : Term} (signal : term.path? ≠ none) (before after : List Json)
    (value : Json) : term.received before (after ++ [value]) =
      hearing (term.received before after) (term.reading value) := by
  obtain ⟨path, there⟩ := Option.ne_none_iff_exists'.mp signal
  have more : [value].filterMap term.reading = (term.reading value).toList := by
    cases reads : term.reading value <;> simp [reads]
  rw [received, received, there]
  dsimp only
  rw [readings, List.filterMap_append, more, ← List.append_assoc, destutter_snoc, ← readings]

end Term

end Switchboard
