import Switchboard.Proofs.Engine.RuleMemory

/-!
# Halfway through a publication

A published value reaches the operands that read its path one after the other,
from left to right. In between, a circuit sees the new bits of some operands
and the old bits of the others. An action is fired where the truth value
changes on the way, whether or not it changes back before the end; it changes
at most once if at most one operand reads the path.
-/
namespace Switchboard

open Switchboard.Stream

/-- What is let in when a value reaches some leaves in a row. -/
def sweep (value : Json) (leaves : List Nat) : List (Nat × Option Json) :=
  leaves.map fun leaf => (leaf, some value)

namespace Formula

/-- The truth value when the first operands have their new bits and the others their old ones. -/
def midway (formula : Formula) (old new : List (Option Bool)) (count : Nat) : Option Bool :=
  formula.valueOn (new.take count ++ old.drop count)

/-- At most one operand reads a path. -/
def ReadsOnce (formula : Formula) (path : String) : Prop :=
  ∀ (i j : Nat) (term other : Term), formula.operands[i]? = some term →
    formula.operands[j]? = some other → term.path? = some path → other.path? = some path → i = j

theorem bounds_places (bus : Bus) (formula : Formula) (leaf : Nat) :
    ∀ place ∈ formula.places bus leaf,
      leaf ≤ place.1 ∧ place.1 < leaf + (formula.stream bus).leaves.length := by
  intro place member
  obtain ⟨before, after, split, here⟩ := formula.leaves_places bus leaf place member
  have some_leaf := place.2.leaves_pos bus
  have length := congrArg List.length split
  rw [List.length_append, List.length_append] at length
  omega

/-- The places stand in order. -/
theorem ordered_places (bus : Bus) (formula : Formula) (leaf : Nat) :
    (formula.places bus leaf).Pairwise fun place later => place.1 < later.1 := by
  have joined (left right : Formula) (leaf : Nat)
      (ih : (left.places bus leaf).Pairwise fun place later => place.1 < later.1)
      (ih' : (right.places bus (leaf + (left.stream bus).leaves.length)).Pairwise
        fun place later => place.1 < later.1) :
      (left.places bus leaf ++ right.places bus (leaf + (left.stream bus).leaves.length)).Pairwise
        fun place later => place.1 < later.1 := by
    refine List.pairwise_append.mpr ⟨ih, ih', fun place member later member' => ?_⟩
    have below := left.bounds_places bus leaf place member
    have above := right.bounds_places bus _ later member'
    omega
  induction formula generalizing leaf with
  | operand term => exact List.pairwise_singleton _ _
  | negation formula ih => exact ih leaf
  | conjunction left right ih ih' => exact joined left right leaf (ih leaf) (ih' _)
  | disjunction left right ih ih' => exact joined left right leaf (ih leaf) (ih' _)

/-- The first leaf of a place is its signal if it has one, and the others are own values. -/
theorem leaf_of_place (bus : Bus) (formula : Formula) {place : Nat × Term}
    (member : place ∈ formula.places bus 0) {leaf : Nat} (from_here : place.1 ≤ leaf)
    (inside : leaf < place.1 + (place.2.stream bus).leaves.length) :
    (formula.stream bus).leaves[leaf]? = some .own ∨
      leaf = place.1 ∧ ∃ path, place.2.path? = some path ∧
        (formula.stream bus).leaves[leaf]? = some (.subject (bus.line path)) := by
  obtain ⟨before, after, split, here⟩ := formula.leaves_places bus 0 place member
  obtain ⟨more, rfl⟩ := Nat.exists_eq_add_of_le from_here
  have small : more < (place.2.stream bus).leaves.length := by omega
  have leaf_eq : (formula.stream bus).leaves[place.1 + more]? =
      (place.2.stream bus).leaves[more]? := by
    rw [split, here, Nat.zero_add, List.append_assoc, List.getElem?_append_right (by omega),
      Nat.add_sub_cancel_left, List.getElem?_append_left small]
  rw [leaf_eq]
  by_cases constant : place.2.path? = none
  · rw [Term.leaves_constant bus constant] at small ⊢
    obtain rfl : more = 0 := by simpa using small
    exact .inl rfl
  · obtain ⟨path, signal⟩ := Option.ne_none_iff_exists'.mp constant
    have line : bus.line place.2.path = bus.line path := by
      rw [Term.path_of_path? signal]
    rcases Term.leaves_signal bus constant with leaves | leaves
    · rw [leaves, line] at small ⊢
      obtain rfl : more = 0 := by simpa using small
      exact .inr ⟨rfl, path, signal, rfl⟩
    · rw [leaves, line] at small ⊢
      match more with
      | 0 => exact .inr ⟨rfl, path, signal, rfl⟩
      | 1 => exact .inl rfl

/-- The places before a leaf and those from there on. -/
theorem split_places (bus : Bus) (formula : Formula) (bound : Nat) :
    ∃ before after, formula.places bus 0 = before ++ after ∧
      before.length = (formula.places bus 0).countP (·.1 < bound) ∧
      (∀ place ∈ before, place.1 < bound) ∧ ∀ place ∈ after, bound ≤ place.1 := by
  have ordered := formula.ordered_places bus 0
  generalize formula.places bus 0 = places at ordered ⊢
  induction places with
  | nil => exact ⟨[], [], rfl, rfl, nofun, nofun⟩
  | cons place rest ih =>
    obtain ⟨later, ordered⟩ := List.pairwise_cons.mp ordered
    by_cases early : place.1 < bound
    · obtain ⟨before, after, split, length, below, above⟩ := ih ordered
      refine ⟨place :: before, after, by rw [split, List.cons_append], ?_, ?_, above⟩
      · rw [List.countP_cons_of_pos (by simpa using early), ← length, List.length_cons]
      · exact List.forall_mem_cons.mpr ⟨early, below⟩
    · have beyond : ∀ other ∈ place :: rest, bound ≤ other.1 := by
        intro other member
        rcases List.mem_cons.mp member with rfl | member
        · exact Nat.not_lt.mp early
        · exact Nat.le_of_lt (Nat.lt_of_le_of_lt (Nat.not_lt.mp early) (later other member))
      refine ⟨[], place :: rest, rfl, ?_, nofun, beyond⟩
      refine (List.countP_eq_zero.mpr fun other member => ?_).symm
      simpa using beyond other member

/-- What is let in elsewhere makes no difference to an operand. -/
theorem window_sweep (bus : Bus) (formula : Formula) {place : Nat × Term}
    (member : place ∈ formula.places bus 0) (value : Json) {leaves : List Nat}
    (signals : ∀ leaf ∈ leaves, (formula.stream bus).leaves[leaf]? ≠ some .own)
    (elsewhere : ∀ leaf ∈ leaves, leaf ≠ place.1) :
    window place.1 (place.2.stream bus).leaves.length (sweep value leaves) = [] := by
  refine List.filterMap_eq_nil_iff.mpr fun feed fed => if_neg ?_
  obtain ⟨leaf, listed, rfl⟩ := List.mem_map.mp fed
  rintro ⟨from_here, inside⟩
  rcases formula.leaf_of_place bus member from_here inside with own | ⟨here, _⟩
  · exact signals leaf listed own
  · exact elsewhere leaf listed here

/--
After the leaves before a bound have been reached, the operands before the bound have their new
bits and the others their old ones.
-/
theorem lastBits_sweep (bus : Bus) (formula : Formula) (feeds : List (Nat × Option Json))
    (value : Json) {front back : List Nat} {bound : Nat} (below : ∀ leaf ∈ front, leaf < bound)
    (above : ∀ leaf ∈ back, bound ≤ leaf)
    (signals : ∀ leaf ∈ front ++ back, (formula.stream bus).leaves[leaf]? ≠ some .own) :
    formula.lastBits bus 0 (feeds ++ sweep value front) =
      (formula.lastBits bus 0 (feeds ++ sweep value (front ++ back))).take
          ((formula.places bus 0).countP (·.1 < bound)) ++
        (formula.lastBits bus 0 feeds).drop ((formula.places bus 0).countP (·.1 < bound)) := by
  obtain ⟨before, after, split, length, early, late⟩ := formula.split_places bus bound
  have listed (place : Nat × Term) (member : place ∈ before ++ after) :
      place ∈ formula.places bus 0 := split ▸ member
  simp only [List.forall_mem_append] at signals
  unfold lastBits
  rw [← length, split, List.map_append, List.map_append, List.map_append,
    List.take_left' (List.length_map _), List.drop_left' (List.length_map _)]
  congr 1
  · refine List.map_congr_left fun place member => ?_
    have nothing := formula.window_sweep bus (listed place (List.mem_append_left _ member)) value
      signals.2 (fun leaf back_leaf => by
        have := early place member
        have := above leaf back_leaf
        omega)
    rw [sweep, sweep, List.map_append, ← List.append_assoc,
      window_append _ _ (feeds ++ _)]
    rw [sweep] at nothing
    rw [nothing, List.append_nil]
  · refine List.map_congr_left fun place member => ?_
    have nothing := formula.window_sweep bus (listed place (List.mem_append_right _ member)) value
      signals.1 (fun leaf front_leaf => by
        have := late place member
        have := below leaf front_leaf
        omega)
    rw [window_append, nothing, List.append_nil]

/-- A truth value that is reached on the way is reached at some operand. -/
theorem exists_change {formula : Formula} {old new : List (Option Bool)} {b : Bool}
    {first last : Nat} (before : formula.midway old new first ≠ some b)
    (after : formula.midway old new last = some b) (order : first ≤ last) :
    ∃ k, formula.midway old new k ≠ some b ∧ formula.midway old new (k + 1) = some b := by
  induction last with
  | zero =>
    obtain rfl : first = 0 := by omega
    exact absurd after before
  | succ last ih =>
    by_cases already : formula.midway old new last = some b
    · have apart : first ≠ last + 1 := by
        rintro rfl
        exact before after
      exact ih already (by omega)
    · exact ⟨last, already, after⟩

/-- An operand whose bit stays makes no difference when it is reached. -/
theorem midway_succ {formula : Formula} {old new : List (Option Bool)} {k : Nat}
    (same : new[k]? = old[k]?) : formula.midway old new (k + 1) = formula.midway old new k := by
  rw [midway, midway, List.take_add_one, same, List.append_assoc,
    ← List.drop_eq_getElem?_toList_append]

/-- If the operands that have not been reached keep their bits, the value is what it will be. -/
theorem midway_eq_valueOn {formula : Formula} {old new : List (Option Bool)} {k : Nat}
    (same : ∀ i, k ≤ i → new[i]? = old[i]?) : formula.midway old new k = formula.valueOn new := by
  have rest : old.drop k = new.drop k := by
    refine List.ext_getElem? fun i => ?_
    rw [List.getElem?_drop, List.getElem?_drop]
    exact (same (k + i) (Nat.le_add_right k i)).symm
  rw [midway, rest, List.take_append_drop]

/-- Where one operand at most can change, a change on the way leads to the value in the end. -/
theorem value_of_change {formula : Formula} {path : String} (once : formula.ReadsOnce path)
    {old new : List (Option Bool)} (length : old.length = formula.operands.length)
    (length' : new.length = formula.operands.length)
    (same : ∀ (i : Nat) (term : Term), formula.operands[i]? = some term →
      term.path? ≠ some path → new[i]? = old[i]?) {k : Nat} {b : Bool}
    (before : formula.midway old new k ≠ some b)
    (after : formula.midway old new (k + 1) = some b) : formula.valueOn new = some b := by
  have reads {i : Nat} (changes : new[i]? ≠ old[i]?) :
      ∃ term, formula.operands[i]? = some term ∧ term.path? = some path := by
    by_cases inside : i < formula.operands.length
    · have here := List.getElem?_eq_getElem inside
      refine ⟨_, here, ?_⟩
      by_cases reading : formula.operands[i].path? = some path
      · exact reading
      · exact absurd (same i _ here reading) changes
    · have beyond : new[i]? = none := List.getElem?_eq_none (by omega)
      have beyond' : old[i]? = none := List.getElem?_eq_none (by omega)
      exact absurd (beyond.trans beyond'.symm) changes
  have here : new[k]? ≠ old[k]? := fun unchanged => before ((midway_succ unchanged).symm.trans after)
  obtain ⟨term, at_k, reading⟩ := reads here
  have settled (i : Nat) (later : k + 1 ≤ i) : new[i]? = old[i]? := by
    by_cases changes : new[i]? = old[i]?
    · exact changes
    · obtain ⟨other, at_i, reading'⟩ := reads changes
      have one := once k i term other at_k at_i reading reading'
      omega
  rw [← midway_eq_valueOn settled]
  exact after

/-- Operands that do not read a path keep their bits when a value is published there. -/
theorem lastBits_elsewhere (bus : Bus) (formula : Formula) (feeds : List (Nat × Option Json))
    (value : Json) {leaves : List Nat} {path : String}
    (there : ∀ leaf ∈ leaves, leaf < (formula.stream bus).leaves.length →
      (formula.stream bus).leaves[leaf]? = some (.subject (bus.line path)))
    {i : Nat} {term : Term} (operand : formula.operands[i]? = some term)
    (other : term.path? ≠ some path) :
    (formula.lastBits bus 0 (feeds ++ sweep value leaves))[i]? =
      (formula.lastBits bus 0 feeds)[i]? := by
  rw [← formula.map_places bus 0, List.getElem?_map] at operand
  obtain ⟨place, found, rfl⟩ := Option.map_eq_some_iff.mp operand
  have member := List.mem_of_getElem? found
  have inside := formula.bounds_places bus 0 place member
  have nothing : window place.1 (place.2.stream bus).leaves.length (sweep value leaves) = [] := by
    refine formula.window_sweep bus member value (fun leaf listed own => ?_) ?_
    · obtain ⟨small, _⟩ := List.getElem?_eq_some_iff.mp own
      rw [there leaf listed small] at own
      exact nomatch own
    · rintro leaf listed rfl
      have here := there place.1 listed (by omega)
      have some_leaf := place.2.leaves_pos bus
      rcases formula.leaf_of_place bus member (Nat.le_refl _) (by omega) with
        own | ⟨_, path', signal, subject⟩
      · rw [here] at own
        exact nomatch own
      · rw [here] at subject
        injection subject with subject
        injection subject with line
        injection line with _ same
        exact other (same ▸ signal)
  unfold lastBits
  rw [List.getElem?_map, List.getElem?_map, found]
  simp only [Option.map_some, window_append, nothing, List.append_nil]

end Formula

namespace Circuit

variable (circuit : Circuit) (feeds : List (Nat × Option Json)) (value : Json)

/-- Where a value has reached the leaves before a bound, the truth value is one halfway. -/
theorem truth_sweep {front back : List Nat} {bound : Nat} (below : ∀ leaf ∈ front, leaf < bound)
    (above : ∀ leaf ∈ back, bound ≤ leaf)
    (signals : ∀ leaf ∈ front ++ back, circuit.actions.leaves[leaf]? ≠ some .own) :
    circuit.truth (feeds ++ sweep value front) =
      circuit.input.midway (circuit.bitsAfter feeds)
        (circuit.bitsAfter (feeds ++ sweep value (front ++ back)))
        ((circuit.input.places .empty 0).countP (·.1 < bound)) := by
  have input_signals : ∀ leaf ∈ front ++ back,
      (circuit.input.stream .empty).leaves[leaf]? ≠ some .own := by
    intro leaf member own
    obtain ⟨small, _⟩ := List.getElem?_eq_some_iff.mp own
    refine signals leaf member ?_
    rw [leaves_eq, List.getElem?_append_left small]
    exact own
  rw [truth, bitsAfter, circuit.input.lastBits_sweep .empty feeds value below above input_signals]
  rfl

variable {circuit feeds value}

/-- An action that is fired at the input comes of a truth value that was not there before. -/
theorem changed_of_emits {leaf : Nat} {incoming : Option Json} {action : Action}
    (inner : leaf < circuit.outLeaf)
    (emits : circuit.actions.Emits feeds (leaf, incoming) action) :
    circuit.truth feeds ≠ some action.isOn := by
  obtain ⟨truth, _⟩ := differs_of_emits emits
  obtain ⟨joint, pair, rfl⟩ := emits.of_filterMap
  obtain ⟨i, passed⟩ := pair.of_combine inner
  have inside : 0 ≤ leaf ∧ leaf < 0 + (circuit.input.stream .empty).leaves.length := by
    have bound : leaf < (circuit.input.stream .empty).leaves.length := inner
    omega
  have same : some i = some action.isOn := by
    rw [← truth, ← last_input, window_append, window_single, if_pos inside]
    exact passed.last.symm
  rw [← same, ← last_input, last_distinct]
  exact passed.of_distinct

variable (circuit feeds value)

/--
An action that is fired while a value reaches the leaves of a circuit in order is one for which
the truth value changes halfway, or is what it is in the end.
-/
theorem actions_midway {leaves : List Nat} (ordered : leaves.Pairwise (· < ·))
    (signals : ∀ leaf ∈ leaves, circuit.actions.leaves[leaf]? ≠ some .own) {actions : List Action}
    (emitted : (circuit.actions.course (feeds ++ sweep value leaves)).2 =
      (circuit.actions.course feeds).2 ++ actions) {action : Action} (fired : action ∈ actions) :
    (∃ k,
      circuit.input.midway (circuit.bitsAfter feeds)
          (circuit.bitsAfter (feeds ++ sweep value leaves)) k ≠ some action.isOn ∧
        circuit.input.midway (circuit.bitsAfter feeds)
          (circuit.bitsAfter (feeds ++ sweep value leaves)) (k + 1) = some action.isOn) ∨
      circuit.input.valueOn (circuit.bitsAfter (feeds ++ sweep value leaves)) =
        some action.isOn := by
  obtain ⟨front, feed, back, split, emits⟩ := exists_emits emitted action fired
  obtain ⟨early, others, rfl, rfl, rest⟩ := List.map_eq_append_iff.mp split
  obtain ⟨leaf, late, rfl, rfl, rfl⟩ := List.map_eq_cons_iff.mp rest
  have below : ∀ other ∈ early, other < leaf := fun other member =>
    (List.pairwise_append.mp ordered).2.2 other member leaf List.mem_cons_self
  have above : ∀ other ∈ late, leaf < other :=
    (List.pairwise_cons.mp (List.pairwise_append.mp ordered).2.1).1
  have from_here : ∀ other ∈ leaf :: late, leaf ≤ other :=
    List.forall_mem_cons.mpr ⟨Nat.le_refl leaf, fun other member => Nat.le_of_lt (above other member)⟩
  have up_to_here : ∀ other ∈ early ++ [leaf], other < leaf + 1 :=
    List.forall_mem_append.mpr ⟨fun other member => Nat.lt_succ_of_lt (below other member),
      List.forall_mem_singleton.mpr (Nat.lt_succ_self leaf)⟩
  have regrouped : early ++ [leaf] ++ late = early ++ leaf :: late := by simp
  have before := circuit.truth_sweep feeds value below from_here signals
  have after := circuit.truth_sweep feeds value up_to_here above (by rwa [regrouped])
  have here : feeds ++ sweep value (early ++ [leaf]) =
      feeds ++ sweep value early ++ [(leaf, some value)] := by
    simp [sweep]
  have reached := (differs_of_emits emits).1
  rw [← sweep, ← here, after, regrouped] at reached
  by_cases inner : leaf < circuit.outLeaf
  · have changed := changed_of_emits inner emits
    rw [← sweep, before] at changed
    refine .inl (Formula.exists_change changed reached (List.countP_mono_left fun place _ early => ?_))
    simp only [decide_eq_true_eq] at early ⊢
    omega
  · -- The leaf is one of the output's, so that all operands have been reached.
    have all_before : (circuit.input.places .empty 0).countP (·.1 < leaf + 1) =
        (circuit.input.places .empty 0).length := by
      refine List.countP_eq_length.mpr fun place member => ?_
      have bounds := circuit.input.bounds_places .empty 0 place member
      have outer : (circuit.input.stream .empty).leaves.length ≤ leaf := Nat.not_lt.mp inner
      simp only [decide_eq_true_eq]
      omega
    have length (feeds : List (Nat × Option Json)) :
        (circuit.bitsAfter feeds).length ≤ (circuit.input.places .empty 0).length :=
      Nat.le_of_eq (List.length_map _)
    rw [all_before, Formula.midway, List.take_of_length_le (length _),
      List.drop_of_length_le (length _), List.append_nil] at reached
    exact .inr reached

/-- If at most one operand reads the path, the action is right for the bits in the end. -/
theorem actions_once {leaves : List Nat} {path : String} (ordered : leaves.Pairwise (· < ·))
    (there : ∀ leaf ∈ leaves,
      circuit.actions.leaves[leaf]? = some (.subject (Bus.empty.line path)))
    (once : circuit.input.ReadsOnce path) {actions : List Action}
    (emitted : (circuit.actions.course (feeds ++ sweep value leaves)).2 =
      (circuit.actions.course feeds).2 ++ actions) {action : Action} (fired : action ∈ actions) :
    circuit.input.valueOn (circuit.bitsAfter (feeds ++ sweep value leaves)) =
      some action.isOn := by
  have signals : ∀ leaf ∈ leaves, circuit.actions.leaves[leaf]? ≠ some .own := by
    intro leaf listed own
    rw [there leaf listed] at own
    exact nomatch own
  have here : ∀ leaf ∈ leaves, leaf < (circuit.input.stream .empty).leaves.length →
      (circuit.input.stream .empty).leaves[leaf]? = some (.subject (Bus.empty.line path)) := by
    intro leaf listed small
    rw [← there leaf listed, leaves_eq, List.getElem?_append_left small]
  rcases circuit.actions_midway feeds value ordered signals emitted fired with
    ⟨k, before, after⟩ | settled
  · exact Formula.value_of_change once (circuit.input.length_lastBits ..)
      (circuit.input.length_lastBits ..)
      (fun i term operand other =>
        circuit.input.lastBits_elsewhere .empty feeds value here operand other) before after
  · exact settled

end Circuit

end Switchboard
