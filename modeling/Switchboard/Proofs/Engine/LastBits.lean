import Switchboard.Proofs.Engine.Circuit

/-!
# What a subscription remembers of its operands

The stream of a term leaves out repetitions and so has to remember the bit it
has passed on last. For a circuit these are the last bits of the operands, one
for every occurrence, and of the output. They are read off the state of the
subscription, without a look at its past, and agree with the past.
-/
namespace Switchboard

open Switchboard.Stream

namespace Term

/-- The bit that a term's stream has passed on last. -/
def remembered (bus : Bus) (term : Term) (state : (term.stream bus).State) : Option Bool :=
  (show Option Bool × (term.bits bus).State from state).1

theorem remembered_course (bus : Bus) (term : Term) (feeds : List (Nat × Option Json)) :
    term.remembered bus ((term.stream bus).course feeds).1 = (term.stream bus).last feeds := by
  have state := state_tap term.issuing (Stream.distinct inferInstance (term.bits bus)) feeds
  have kept := course_distinct (ρ := Entry) inferInstance (term.bits bus) feeds
  have here : term.remembered bus ((term.stream bus).course feeds).1 =
      (term.bits bus).last feeds :=
    congrArg (term.remembered bus) (state.trans kept.1)
  rw [here, stream, last_tap, kept.2]

end Term

namespace Formula

/-- The bits that the operands' streams have passed on last. -/
def remembered (bus : Bus) : (formula : Formula) → (formula.stream bus).State → List (Option Bool)
  | .operand term, state => [term.remembered bus state]
  | .negation formula, state => formula.remembered bus state
  | .conjunction left right, state =>
    let parts : (Option Bool × Option Bool) × (left.stream bus).State × (right.stream bus).State :=
      state
    left.remembered bus parts.2.1 ++ right.remembered bus parts.2.2
  | .disjunction left right, state =>
    let parts : (Option Bool × Option Bool) × (left.stream bus).State × (right.stream bus).State :=
      state
    left.remembered bus parts.2.1 ++ right.remembered bus parts.2.2

theorem course_joined (word : String) (f : Bool → Bool → Bool) (left right : BusStream Bool)
    (leaf : Nat) (feeds : List (Nat × Option Json)) :
    ((Input.joined word f left right).course
        (window leaf (Input.joined word f left right).leaves.length feeds)).1 =
      ((left.last (window leaf left.leaves.length feeds),
          right.last (window (leaf + left.leaves.length) right.leaves.length feeds)),
        (left.course (window leaf left.leaves.length feeds)).1,
        (right.course (window (leaf + left.leaves.length) right.leaves.length feeds)).1) := by
  have both := course_combine (ρ := Entry) Prod.mk left right
    (window leaf (Input.joined word f left right).leaves.length feeds)
  rw [leaves_joined, List.length_append, window_window _ _ _ _ _ (by omega), Nat.add_zero,
    window_window _ _ _ _ _ (by omega)] at both
  rw [leaves_joined, List.length_append]
  exact (state_filterMap ..).trans ((state_tap ..).trans both.1)

theorem remembered_course (bus : Bus) (formula : Formula) (leaf : Nat)
    (feeds : List (Nat × Option Json)) :
    formula.remembered bus
        ((formula.stream bus).course (window leaf (formula.stream bus).leaves.length feeds)).1 =
      formula.lastBits bus leaf feeds := by
  induction formula generalizing leaf with
  | operand term =>
    rw [remembered, lastBits]
    exact congrArg (fun bit => [bit]) (term.remembered_course bus _)
  | negation formula ih =>
    have state := state_filterMap (ρ := Entry) (fun b => some !b) (formula.stream bus)
      (window leaf (formula.stream bus).leaves.length feeds)
    exact (congrArg ((negation formula).remembered bus) state).trans (ih leaf)
  | conjunction left right ih ih' =>
    have state := course_joined "and-ing" (· && ·) (left.stream bus) (right.stream bus) leaf feeds
    have both : (conjunction left right).lastBits bus leaf feeds = left.lastBits bus leaf feeds ++
        right.lastBits bus (leaf + (left.stream bus).leaves.length) feeds :=
      List.map_append
    rw [both, ← ih, ← ih']
    exact congrArg ((conjunction left right).remembered bus) state
  | disjunction left right ih ih' =>
    have state := course_joined "or-ing" (· || ·) (left.stream bus) (right.stream bus) leaf feeds
    have both : (disjunction left right).lastBits bus leaf feeds = left.lastBits bus leaf feeds ++
        right.lastBits bus (leaf + (left.stream bus).leaves.length) feeds :=
      List.map_append
    rw [both, ← ih, ← ih']
    exact congrArg ((disjunction left right).remembered bus) state

end Formula

namespace Circuit

/-- What a subscription to a circuit's actions remembers, part by part. -/
def parts (circuit : Circuit) (state : circuit.actions.State) :
    (Option Bool × Option Bool) × (Option Bool × (circuit.input.stream .empty).State) ×
      (circuit.output.stream .empty).State :=
  state

/-- The last bits of the input's operands. -/
def operandBits (circuit : Circuit) (state : circuit.actions.State) : List (Option Bool) :=
  circuit.input.remembered .empty (circuit.parts state).2.1.2

/-- The last bit of the output. -/
def outputBit (circuit : Circuit) (state : circuit.actions.State) : Option Bool :=
  circuit.output.remembered .empty (circuit.parts state).2.2

variable (circuit : Circuit) (feeds : List (Nat × Option Json))

/-- The last bits that the operands have had after some feeds. -/
def bitsAfter : List (Option Bool) := circuit.input.lastBits .empty 0 feeds

theorem parts_course : circuit.parts (circuit.actions.course feeds).1 =
    ((circuit.input.valueOn (circuit.bitsAfter feeds),
        (circuit.output.stream .empty).last (window (circuit.input.stream .empty).leaves.length
          (circuit.output.stream .empty).leaves.length feeds)),
      (circuit.input.valueOn (circuit.bitsAfter feeds),
        ((circuit.input.stream .empty).course
          (window 0 (circuit.input.stream .empty).leaves.length feeds)).1),
      ((circuit.output.stream .empty).course (window (circuit.input.stream .empty).leaves.length
        (circuit.output.stream .empty).leaves.length feeds)).1) := by
  have both := course_combine (ρ := Entry) Action.decide
    (.distinct inferInstance (circuit.input.stream .empty)) (circuit.output.stream .empty) feeds
  have value := circuit.input.last_valueOn .empty 0 feeds
  have input := course_distinct (ρ := Entry) inferInstance (circuit.input.stream .empty)
    (window 0 (circuit.input.stream .empty).leaves.length feeds)
  have state := state_filterMap (ρ := Entry) id (Stream.combine Action.decide
    (.distinct inferInstance (circuit.input.stream .empty)) (circuit.output.stream .empty)) feeds
  rw [value] at input
  have left : ((Stream.distinct (ρ := Entry) inferInstance (circuit.input.stream .empty)).last
      (window 0 (circuit.input.stream .empty).leaves.length feeds)) =
        circuit.input.valueOn (circuit.bitsAfter feeds) := input.2
  refine (state.trans both.1).trans ?_
  refine congrArg₂ Prod.mk ?_ ?_
  · exact congrArg₂ Prod.mk left rfl
  · exact congrArg₂ Prod.mk input.1 rfl

theorem operandBits_course :
    circuit.operandBits (circuit.actions.course feeds).1 = circuit.bitsAfter feeds := by
  rw [operandBits, parts_course]
  exact circuit.input.remembered_course .empty 0 feeds

theorem outputBit_course : circuit.outputBit (circuit.actions.course feeds).1 =
    (circuit.output.stream .empty).last (window (circuit.input.stream .empty).leaves.length
      (circuit.output.stream .empty).leaves.length feeds) := by
  rw [outputBit, parts_course]
  exact circuit.output.remembered_course .empty _

end Circuit

end Switchboard
