import Switchboard.Proofs.Engine.LastBits
import Switchboard.Proofs.Stream.Emission
import Switchboard.Proofs.Term.Fed
import Switchboard.Proofs.Term.Settable

/-!
# Input and output of a rule, one feed after the other

The leaves of a circuit are those of its input, followed by those of its
output, the first of which is the output's signal. A feed changes one of the
two sides. It fires an action if the two sides differ afterwards and one of
them has just changed; if nothing is fired, they agree or stay as they were.
-/
namespace Switchboard

open Switchboard.Stream

/-- The one leaf of a term that stands on a line is its signal. -/
theorem Term.signal_of_leaf {bus : Bus} {term : Term} {leaf : Nat} {line : Line}
    (here : (term.stream bus).leaves[leaf]? = some (.subject line)) :
    leaf = 0 ∧ ∃ path, term.path? = some path ∧ line = bus.line path := by
  by_cases constant : term.path? = none
  · rw [leaves_constant bus constant] at here
    match leaf with
    | 0 => exact nomatch here
    | _ + 1 => exact nomatch here
  · obtain ⟨path, signal⟩ := Option.ne_none_iff_exists'.mp constant
    have same : bus.line term.path = bus.line path := by
      rw [path_of_path? signal]
    rcases leaves_signal bus constant with leaves | leaves
    · rw [leaves, same] at here
      match leaf with
      | 0 => exact ⟨rfl, path, signal, by simpa using here.symm⟩
      | _ + 1 => exact nomatch here
    · rw [leaves, same] at here
      match leaf with
      | 0 => exact ⟨rfl, path, signal, by simpa using here.symm⟩
      | 1 => exact nomatch here
      | _ + 2 => exact nomatch here

/-- A leaf of a formula that stands on a line belongs to an operand that reads the line. -/
theorem Formula.operand_of_leaf {bus : Bus} {formula : Formula} {leaf : Nat} {line : Line}
    (here : (formula.stream bus).leaves[leaf]? = some (.subject line)) :
    ∃ term ∈ formula.operands, ∃ path, term.path? = some path ∧ line = bus.line path := by
  have joined (left right : Formula)
      (ih : ∀ {leaf : Nat}, (left.stream bus).leaves[leaf]? = some (.subject line) →
        ∃ term ∈ left.operands, ∃ path, term.path? = some path ∧ line = bus.line path)
      (ih' : ∀ {leaf : Nat}, (right.stream bus).leaves[leaf]? = some (.subject line) →
        ∃ term ∈ right.operands, ∃ path, term.path? = some path ∧ line = bus.line path)
      {leaf : Nat} (here : ((left.stream bus).leaves ++ (right.stream bus).leaves)[leaf]? =
        some (.subject line)) :
      ∃ term ∈ left.operands ++ right.operands,
        ∃ path, term.path? = some path ∧ line = bus.line path := by
    rw [List.getElem?_append] at here
    split at here
    · obtain ⟨term, operand, reads⟩ := ih here
      exact ⟨term, List.mem_append_left _ operand, reads⟩
    · obtain ⟨term, operand, reads⟩ := ih' here
      exact ⟨term, List.mem_append_right _ operand, reads⟩
  induction formula generalizing leaf with
  | operand term => exact ⟨term, List.mem_singleton_self term, (Term.signal_of_leaf here).2⟩
  | negation formula ih => exact ih here
  | conjunction left right ih ih' => exact joined left right ih ih' here
  | disjunction left right ih ih' => exact joined left right ih ih' here

namespace Circuit

variable (circuit : Circuit) (feeds : List (Nat × Option Json))

/-- The leaf of the output's signal. -/
def outLeaf : Nat := (circuit.input.stream .empty).leaves.length

/-- The line of the output. -/
def outLine : Line := Bus.empty.line circuit.output.path

/-- The truth value of the input after some feeds. -/
def truth : Option Bool := circuit.input.valueOn (circuit.bitsAfter feeds)

/-- The bit of the output after some feeds. -/
def shown : Option Bool :=
  (circuit.output.stream .empty).last
    (window circuit.outLeaf (circuit.output.stream .empty).leaves.length feeds)

/-- Input and output do not differ, if both have a bit. -/
def Agrees : Prop :=
  ∀ i o, circuit.truth feeds = some i → circuit.shown feeds = some o → o = i

theorem leaves_eq : circuit.actions.leaves =
    (circuit.input.stream .empty).leaves ++ (circuit.output.stream .empty).leaves := rfl

/-- What the input passes on last is its truth value. -/
theorem last_input : (Stream.distinct (ρ := Entry) inferInstance (circuit.input.stream .empty)).last
    (window 0 (circuit.input.stream .empty).leaves.length feeds) = circuit.truth feeds := by
  rw [last_distinct]
  exact circuit.input.last_valueOn .empty 0 feeds

theorem shown_nil : circuit.shown [] = none := by
  have nothing : ((circuit.output.stream .empty).last []) = none := rfl
  exact nothing

theorem agrees_of_shown {feeds : List (Nat × Option Json)} (unset : circuit.shown feeds = none) :
    circuit.Agrees feeds := by
  intro i o _ set
  rw [unset] at set
  exact nomatch set

theorem agrees_of_eq {feeds : List (Nat × Option Json)}
    (same : circuit.shown feeds = circuit.truth feeds) : circuit.Agrees feeds := by
  intro i o input output
  rw [same, input] at output
  exact (Option.some.inj output).symm

variable {circuit feeds}

/-- A leaf of a circuit that stands on a line is an operand's that reads it, or the output's. -/
theorem side_of_leaf {leaf : Nat} {line : Line}
    (here : circuit.actions.leaves[leaf]? = some (.subject line)) :
    (leaf < circuit.outLeaf ∧ ∃ term ∈ circuit.input.operands, ∃ path,
      term.path? = some path ∧ line = Bus.empty.line path) ∨
      leaf = circuit.outLeaf ∧ line = circuit.outLine := by
  rw [leaves_eq, List.getElem?_append] at here
  split at here
  · rename_i inner
    exact .inl ⟨inner, Formula.operand_of_leaf here⟩
  · rename_i outer
    obtain ⟨first, path, signal, rfl⟩ := Term.signal_of_leaf here
    have bound : circuit.outLeaf ≤ leaf := Nat.not_lt.mp outer
    have from_there : leaf - circuit.outLeaf = 0 := first
    refine .inr ⟨by omega, ?_⟩
    rw [outLine, Term.path_of_path? signal]

/-- The output's signal stands on its line. -/
theorem leaf_out (signal : circuit.output.path? ≠ none) :
    circuit.actions.leaves[circuit.outLeaf]? = some (.subject circuit.outLine) := by
  rw [leaves_eq, outLeaf, List.getElem?_append_right (Nat.le_refl _), Nat.sub_self]
  rcases Term.leaves_signal .empty signal with leaves | leaves
  · rw [leaves]
    rfl
  · rw [leaves]
    rfl

/-- What is let in at the output leaves the input alone. -/
theorem truth_output {leaf : Nat} (outer : circuit.outLeaf ≤ leaf) (incoming : Option Json) :
    circuit.truth (feeds ++ [(leaf, incoming)]) = circuit.truth feeds := by
  have outside : ¬(0 ≤ leaf ∧ leaf < 0 + (circuit.input.stream .empty).leaves.length) := by
    have bound : (circuit.input.stream .empty).leaves.length ≤ leaf := outer
    omega
  rw [← last_input, ← last_input, window_append, window_single, if_neg outside, List.append_nil]

/-- What is let in at the input leaves the output alone. -/
theorem shown_input {leaf : Nat} (inner : leaf < circuit.outLeaf) (incoming : Option Json) :
    circuit.shown (feeds ++ [(leaf, incoming)]) = circuit.shown feeds := by
  have outside : ¬(circuit.outLeaf ≤ leaf ∧
      leaf < circuit.outLeaf + (circuit.output.stream .empty).leaves.length) := by
    omega
  rw [shown, shown, window_append, window_single, if_neg outside, List.append_nil]

/-- A value on the line of the output shows in the output, if it is a bit there. -/
theorem shown_value (signal : circuit.output.path? ≠ none) (value : Json) :
    circuit.shown (feeds ++ [(circuit.outLeaf, some value)]) =
      (circuit.output.reading value).or (circuit.shown feeds) := by
  have some_leaf := circuit.output.leaves_pos .empty
  have inside : circuit.outLeaf ≤ circuit.outLeaf ∧
      circuit.outLeaf < circuit.outLeaf + (circuit.output.stream .empty).leaves.length := by
    omega
  rw [shown, shown, window_append, window_single, if_pos inside, Nat.sub_self]
  exact Term.last_value .empty signal _ value

/-- A rule that fires has an input that differs from its output. -/
theorem differs_of_emits {feed : Nat × Option Json} {action : Action}
    (emits : circuit.actions.Emits feeds feed action) :
    circuit.truth (feeds ++ [feed]) = some action.isOn ∧
      circuit.shown (feeds ++ [feed]) = some !action.isOn := by
  obtain ⟨joint, pair, rfl⟩ := emits.of_filterMap
  have last := pair.last
  rw [last_combine] at last
  obtain ⟨i, input, last⟩ := Option.bind_eq_some_iff.mp last
  obtain ⟨o, output, decided⟩ := Option.map_eq_some_iff.mp last
  obtain ⟨rfl, rfl⟩ := Action.of_decide decided
  constructor
  · rw [← last_input]
    exact input
  · exact output

/-- Where nothing comes of a feed, neither side has changed, or one of them has no bit. -/
theorem unchanged_of_silent {feed : Nat × Option Json}
    (silent : (Stream.combine Action.decide (.distinct inferInstance (circuit.input.stream .empty))
      (circuit.output.stream .empty)).Silent feeds feed) :
    circuit.Agrees (feeds ++ [feed]) ∨ circuit.truth (feeds ++ [feed]) = circuit.truth feeds ∧
      circuit.shown (feeds ++ [feed]) = circuit.shown feeds := by
  obtain ⟨leaf, incoming⟩ := feed
  by_cases inner : leaf < circuit.outLeaf
  · have same : circuit.shown (feeds ++ [(leaf, incoming)]) = circuit.shown feeds :=
      circuit.shown_input inner incoming
    cases set : circuit.shown feeds with
    | none => exact .inl (circuit.agrees_of_shown (same.trans set))
    | some o =>
      have nothing := silent.at_left inner set
      have inside : 0 ≤ leaf ∧ leaf < 0 + (circuit.input.stream .empty).leaves.length := by
        have bound : leaf < (circuit.input.stream .empty).leaves.length := inner
        omega
      refine .inr ⟨?_, same.trans set⟩
      rw [← last_input, ← last_input, window_append, window_single, if_pos inside]
      exact nothing.last
  · have same : circuit.truth (feeds ++ [(leaf, incoming)]) = circuit.truth feeds :=
      circuit.truth_output (Nat.not_lt.mp inner) incoming
    obtain ⟨more, rfl⟩ := Nat.exists_eq_add_of_le (Nat.not_lt.mp inner)
    by_cases there : more < (circuit.output.stream .empty).leaves.length
    · cases set : circuit.truth feeds with
      | none =>
        refine .inl fun i o input _ => ?_
        rw [same, set] at input
        exact nomatch input
      | some i =>
        have nothing := silent.at_right there ((circuit.last_input feeds).trans set)
        have inside : circuit.outLeaf ≤ circuit.outLeaf + more ∧ circuit.outLeaf + more <
            circuit.outLeaf + (circuit.output.stream .empty).leaves.length := by
          omega
        refine .inr ⟨same.trans set, ?_⟩
        rw [shown, shown, window_append, window_single, if_pos inside, Nat.add_sub_cancel_left]
        exact nothing.last
    · have outside : ¬(circuit.outLeaf ≤ circuit.outLeaf + more ∧ circuit.outLeaf + more <
          circuit.outLeaf + (circuit.output.stream .empty).leaves.length) := by
        omega
      refine .inr ⟨same, ?_⟩
      rw [shown, shown, window_append, window_single, if_neg outside, List.append_nil]

/-- A rule that has agreed and does not fire goes on agreeing. -/
theorem Agrees.of_silent {feed : Nat × Option Json} (agrees : circuit.Agrees feeds)
    (silent : circuit.actions.Silent feeds feed) : circuit.Agrees (feeds ++ [feed]) := by
  rcases silent_or_emits (Stream.combine Action.decide (.distinct inferInstance
    (circuit.input.stream .empty)) (circuit.output.stream .empty)) feeds feed with
    still | ⟨joint, pair⟩
  · rcases unchanged_of_silent still with agrees' | ⟨truth, shown⟩
    · exact agrees'
    · intro i o input output
      rw [truth] at input
      rw [shown] at output
      exact agrees i o input output
  · have passed : (circuit.actions.course (feeds ++ [feed])).2 =
        (circuit.actions.course feeds).2 ++ [joint].filterMap id := by
      rw [actions, actionsOf, course_filterMap, course_filterMap, pair, List.filterMap_append]
    have nothing : joint = none := by
      rw [silent] at passed
      simpa using passed
    have last := pair.last
    rw [last_combine] at last
    obtain ⟨i, input, last⟩ := Option.bind_eq_some_iff.mp last
    obtain ⟨o, output, decided⟩ := Option.map_eq_some_iff.mp last
    rw [nothing] at decided
    refine circuit.agrees_of_eq ?_
    rw [← Action.eq_of_decide decided] at output
    rw [← last_input]
    exact output.trans input.symm

end Circuit

end Switchboard
