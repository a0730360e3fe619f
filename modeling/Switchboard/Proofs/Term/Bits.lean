import Switchboard.Proofs.Stream.Last
import Switchboard.Term.Stream

/-!
# The bits of terms

The last bit of a term's stream, told from the values of its signal alone: the
value that the signal had when the subscription began and all values since.
The last of them that is a bit for the term counts; if none is, the stream is
still at what it began with, if it began with anything.
-/
namespace Switchboard.Term

open Switchboard.Stream

/-- The bit of one value. -/
def reading : Term → Json → Option Bool
  | .off, _ | .on, _ => none
  | .switch .., value | .signal _ .present, value => value.bit?
  | .notification _ onState _ _ _, value => some (isRaised onState value)
  | .signal _ (.compare comparator operand), value => some (comparator.test value operand)
  | .signal _ (.substitute onValue offValue), value => substituted? onValue offValue value

/-- The bit to begin with where the signal has no value yet. -/
def fallback? : Term → Option Bool
  | .off => some false
  | .on => some true
  | .switch .. | .signal _ .present | .notification .. => some false
  | .signal _ (.compare ..) => none
  | .signal _ (.substitute onValue offValue) => substituted? onValue offValue (.int 0)

/-- The bit after some values, the first of which may have been there from the beginning. -/
def bitAfter (term : Term) (current : Option Json) (later : List Json) : Option Bool :=
  ((if term.path? = none ∨ current = none then term.fallback? else none).toList ++
    (current.toList ++ later).filterMap term.reading).getLast?

/-- What comes in first where an own value stands next to a signal. -/
def firstFeed : Option Json → Nat × Option Json
  | some value => (0, some value)
  | none => (1, none)

/-- What a subscription to a term's stream is fed with. -/
structure Fed (bus : Bus) (term : Term) (current : Option Json) (later : List Json)
    (feeds : List (Nat × Option Json)) : Prop where
  own : term.path? = none → (0, none) ∈ feeds
  values : term.path? ≠ none → valuesAt 0 feeds = current.toList ++ later
  first : (term.stream bus).leaves[1]? = some .own →
    feeds.head? = some (firstFeed current)

/-- The leaves of a term's stream: its signal, and then a value of its own at most. -/
theorem leaves_stream (bus : Bus) (term : Term) :
    (term.stream bus).leaves =
      (match term.path? with
        | some path => [.subject (bus.line path)]
        | none => [.own]) ++
      (match term with
        | .off | .on | .signal _ (.compare ..) => []
        | _ => [.own]) := by
  cases term with
  | off => rfl
  | on => rfl
  | switch bank channel => cases bank <;> rfl
  | notification => rfl
  | signal path test => cases test <;> rfl

theorem leaves_pos (bus : Bus) (term : Term) : 0 < (term.stream bus).leaves.length := by
  rw [leaves_stream, List.length_append]
  cases term.path? <;> exact Nat.lt_of_lt_of_le Nat.one_pos (Nat.le_add_right 1 _)

theorem getLast?_replicate_append {α : Type} (a : α) {times : Nat} (pos : 0 < times)
    (rest : List α) : (List.replicate times a ++ rest).getLast? = (a :: rest).getLast? := by
  obtain ⟨more, rfl⟩ : ∃ more, times = more + 1 := ⟨times - 1, by omega⟩
  rw [List.replicate_succ', List.append_assoc, List.getLast?_append]
  simp [List.getLast?_cons]

theorem last_bitsFromZero (line : Line) (read : Json → Option Bool) (current : Option Json)
    (later : List Json) (feeds : List (Nat × Option Json))
    (values : valuesAt 0 feeds = current.toList ++ later)
    (first : feeds.head? = some (firstFeed current)) :
    (bitsFromZero line read).last feeds =
      ((if current = none then read (.int 0) else none).toList ++
        (current.toList ++ later).filterMap read).getLast? := by
  obtain ⟨times, emitted, front, back⟩ :=
    course_property (ρ := Entry) (Json.int 0) (.subject line) id rfl
      (fun _ incoming => ⟨(), [], by cases incoming <;> rfl⟩) feeds
  rw [bitsFromZero, last, course_filterMap, emitted, List.map_id, values, List.filterMap_append]
  cases current with
  | some value =>
    rw [front value first]
    simp
  | none =>
    have some_times := back first
    cases zero : read (.int 0) with
    | none => simp [zero]
    | some b =>
      rw [List.filterMap_replicate_of_some zero, getLast?_replicate_append b some_times]
      simp

theorem bitAfter_constant {term : Term} {b : Bool} {current : Option Json} {later : List Json}
    (constant : term.path? = none) (silent : term.reading = fun _ => none)
    (falls : term.fallback? = some b) : term.bitAfter current later = some b := by
  have nothing (values : List Json) : values.filterMap (fun _ => (none : Option Bool)) = [] :=
    List.filterMap_eq_nil_iff.mpr fun _ _ => rfl
  simp only [bitAfter, constant, silent, falls, nothing, true_or, if_true, Option.toList_some,
    List.append_nil, List.getLast?_singleton]

theorem bitAfter_signal {term : Term} {current : Option Json} {later : List Json}
    (signal : term.path? ≠ none) : term.bitAfter current later =
      ((if current = none then term.fallback? else none).toList ++
        (current.toList ++ later).filterMap term.reading).getLast? := by
  simp only [bitAfter, signal, false_or]

/-- The last bit of a term's stream. -/
theorem last_stream (bus : Bus) {term : Term} {current : Option Json} {later : List Json}
    {feeds : List (Nat × Option Json)} (fed : term.Fed bus current later feeds) :
    (term.stream bus).last feeds = term.bitAfter current later := by
  obtain ⟨own, values, first⟩ := fed
  rw [stream, last_tap, last_distinct]
  cases term with
  | off => rw [bits, last_constant _ (own rfl), bitAfter_constant rfl rfl rfl]
  | on => rw [bits, last_constant _ (own rfl), bitAfter_constant rfl rfl rfl]
  | switch bank channel =>
    have signal : (Term.switch bank channel).path? ≠ none := by cases bank <;> simp [path?]
    have beside : ((Term.switch bank channel).stream bus).leaves[1]? = some .own := by
      cases bank <;> rfl
    rw [bits, last_bitsFromZero _ _ current later feeds (values signal) (first beside),
      bitAfter_signal signal]
    rfl
  | notification path onState offState message methods =>
    have signal : (Term.notification path onState offState message methods).path? ≠ none :=
      nofun
    obtain ⟨times, emitted, front, back⟩ :=
      course_property (ρ := Entry) false (Stream.map (isRaised onState) (.subject (bus.line path)))
        (isRaised onState) rfl (fun _ incoming => ⟨(), [], by cases incoming <;> rfl⟩) feeds
    have passed : ((Term.notification path onState offState message methods).bits bus).last feeds =
        (List.replicate times false ++ (valuesAt 0 feeds).map (isRaised onState)).getLast? :=
      congrArg List.getLast? emitted
    have reads (values : List Json) :
        values.filterMap (Term.notification path onState offState message methods).reading =
          values.map (isRaised onState) :=
      congrFun List.filterMap_eq_map' values
    rw [passed, values signal, bitAfter_signal signal, reads]
    cases current with
    | some value =>
      rw [front value (first rfl)]
      rfl
    | none =>
      rw [getLast?_replicate_append false (back (first rfl))]
      rfl
  | signal path test =>
    have signal : (Term.signal path test).path? ≠ none := nofun
    cases test with
    | present =>
      rw [bits, last_bitsFromZero _ _ current later feeds (values signal) (first rfl),
        bitAfter_signal signal]
      rfl
    | substitute onValue offValue =>
      rw [bits, last_bitsFromZero _ _ current later feeds (values signal) (first rfl),
        bitAfter_signal signal]
      rfl
    | compare comparator operand =>
      have reads (values : List Json) :
          values.filterMap (Term.signal path (.compare comparator operand)).reading =
            values.map (comparator.test · operand) :=
        congrFun List.filterMap_eq_map' values
      rw [bits, last_map, last, course_subject, values signal, bitAfter_signal signal, reads,
        ← List.getLast?_map]
      cases current <;> rfl

end Switchboard.Term
