import Switchboard.Proofs.Engine.RuleMemory
import Switchboard.Proofs.Term.Latest

/-!
# What a rule sees of its lines

A rule that has not been detached since it came sees every line as it is now:
where the latest value is a bit for a term, the term shows this bit to the
rule, no matter when the rule came and what it has met with before.
-/
namespace Switchboard

open Event Network

/-- A subscription at rest of which nothing has been detached since it came. -/
structure Abiding {σ : Type} (events : List (Event Line Json))
    (network : Network Line Json Entry σ) (n : Nat) : Prop where
  sound : Sound events network []
  undisturbed : ∃ before after, events = before ++ after ∧
    (∀ leaf, currents n leaf before = []) ∧ Staying after

namespace Abiding

variable {σ α : Type} {events : List (Event Line Json)} {network : Network Line Json Entry σ}
variable {n : Nat} {stream : BusStream α} {state : stream.State}
variable {listener : α → Script Line Json Entry σ}

/-- A term shows the bit of a legible line. -/
theorem last (abiding : Abiding events network n)
    (there : network.subscriptions[n]? = some ⟨stream, state, listener⟩) (bus : Bus) {term : Term}
    {front back : List (Leaf Line)}
    (split : stream.leaves = front ++ (term.stream bus).leaves ++ back)
    (legible : term.Legible (network.latest (bus.line term.path))) :
    (term.stream bus).last
        (Stream.window front.length (term.stream bus).leaves.length (feeds n events)) =
      term.bitAfter (network.latest (bus.line term.path)) [] := by
  have small := (List.getElem?_eq_some_iff.mp there).1
  have leaves (leaf : Nat) (inside : leaf < (term.stream bus).leaves.length) :
      network.leafAt n (front.length + leaf) = (term.stream bus).leaves[leaf]? := by
    simp [leafAt, there, split, inside, List.getElem?_append]
  obtain ⟨before, after, parts, unattached, staying⟩ := abiding.undisturbed
  by_cases constant : term.path? = none
  · have fed : term.Fed bus none [] _ :=
      Term.fed_of_sound abiding.sound bus leaves (fun _ => reached_at_rest small)
        (fun signal => absurd constant signal) (fun signal => absurd constant signal)
    rw [Term.last_stream bus fed, Term.bitAfter_of_constant constant,
      Term.bitAfter_of_constant constant]
  · have at_signal : network.leafAt n front.length = some (.subject (bus.line term.path)) := by
      rcases Term.leaves_signal bus constant with h | h <;> simpa [h] using leaves 0 (by simp [h])
    obtain ⟨current, later, once, received, latest⟩ :=
      abiding.sound.up_to_date parts (unattached _) staying at_signal
    have fed : term.Fed bus current later _ :=
      Term.fed_of_sound abiding.sound bus leaves (fun _ => reached_at_rest small)
        (fun _ => once) (fun _ => received)
    rw [latest] at legible ⊢
    rw [Term.last_stream bus fed, Term.bitAfter_legible legible]

end Abiding

namespace Circuit

variable {ς : Type} {circuit : Circuit} {events : List (Event Line Json)}
variable {network : PlantNetwork ς} {n : Nat} {state : circuit.actions.State}
variable {listener : Action → PlantScript ς}

/-- What a rule sees of an operand whose line is legible. -/
theorem bit_of_legible (abiding : Abiding events network n)
    (there : network.subscriptions[n]? = some ⟨circuit.actions, state, listener⟩) {i : Nat}
    {term : Term} (operand : circuit.input.operands[i]? = some term)
    (legible : term.Legible (network.latest (Bus.empty.line term.path))) :
    (circuit.bitsAfter (feeds n events))[i]? =
      some (term.bitAfter (network.latest (Bus.empty.line term.path)) []) := by
  rw [← circuit.input.map_places .empty 0, List.getElem?_map] at operand
  obtain ⟨place, here, rfl⟩ := Option.map_eq_some_iff.mp operand
  obtain ⟨front, back, split, start⟩ :=
    circuit.input.leaves_places .empty 0 place (List.mem_of_getElem? here)
  have split' : circuit.actions.leaves =
      front ++ (place.2.stream .empty).leaves ++ (back ++ (circuit.output.stream .empty).leaves) := by
    rw [circuit.leaves_eq, split]
    simp only [List.append_assoc]
  rw [bitsAfter, Formula.lastBits, List.getElem?_map, here, Option.map_some, start, Nat.zero_add,
    abiding.last there .empty split' legible]

/-- What a rule sees of its output, if the output's line is legible. -/
theorem shown_of_legible (abiding : Abiding events network n)
    (there : network.subscriptions[n]? = some ⟨circuit.actions, state, listener⟩)
    (legible : circuit.output.Legible (network.latest circuit.outLine)) :
    circuit.shown (feeds n events) =
      circuit.output.bitAfter (network.latest circuit.outLine) [] := by
  have split : circuit.actions.leaves =
      (circuit.input.stream .empty).leaves ++ (circuit.output.stream .empty).leaves ++ [] :=
    (List.append_nil _).symm
  exact abiding.last there .empty split legible

end Circuit

end Switchboard
