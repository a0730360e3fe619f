import Switchboard.Proofs.Engine.Firing
import Switchboard.Proofs.Engine.Healing

/-!
# Rules in a closed loop converge

Publications from outside, on the line of an output or on any other, and the
subscriptions of rules that are started, leave all rules at rest and in
agreement. A rule that is started listens to the line of its output before it
can fire.
-/
namespace Switchboard

open Event Network

namespace Loop

variable {ς : Type} {loop : Loop ς} {fed fed' : Feeds} {network next : PlantNetwork ς}
variable {value : Json} {go : Nat → PlantScript ς}

/-- A publication on a line that no rule writes. -/
theorem publish_elsewhere {line : Line} (settled : loop.Settled 0 fed network)
    (unwritten : ∀ (n : Nat) (circuit : Circuit), loop.circuits[n]? = some circuit →
      circuit.outLine ≠ line)
    (idle : (network.subject line).busy = false)
    (quiet : ∀ audience, (go audience).Quiet (Within 0 loop.kind)) :
    ∃ next fed', network.Reaches [.script (.publish line value go)] next [] ∧
      loop.Settled 0 fed' next ∧
      next.subscriptions.length = network.subscriptions.length := by
  have touched := Touched.setOut network line value []
  let Holds (waiting : List (Nat × Nat)) (now : PlantNetwork ς) : Prop :=
    (∃ fed', loop.Settled 0 fed' now) ∧
      now.subject line = (network.setOut line value []).subject line ∧
      now.subscriptions.length = network.subscriptions.length ∧
      ∀ listener ∈ waiting, listener ∈ (now.subject line).listeners
  have delivers : ∀ m leaf waiting now, Holds ((m, leaf) :: waiting) now →
      ∃ next : PlantNetwork ς, (now.feed m leaf (some value)).1.Reaches
        (now.feed m leaf (some value)).2 next [] ∧ Holds waiting next := by
    rintro m leaf waiting now ⟨⟨fed', settled'⟩, same, length, known⟩
    obtain ⟨first, known⟩ := List.forall_mem_cons.mp known
    obtain ⟨circuit, here, ⟨inner, _⟩ | ⟨_, writes⟩⟩ := settled'.running.side first
    · obtain ⟨next, fed'', reaches, settled'', beyond⟩ :=
        loop.heals m here (settled'.mono (Nat.zero_le _)) (.inl inner) (some value)
      have same_line := beyond.subject line fun n other there writes =>
        absurd writes (unwritten n other there)
      refine ⟨next, reaches, ⟨fed'', settled'.extend settled'' beyond⟩, ?_, ?_, ?_⟩
      · rw [same_line, same]
      · rw [beyond.length, length]
      · rw [same_line]
        exact known
    · exact absurd writes.symm (unwritten m circuit here)
  have start : loop.Settled 0 fed (network.setOut line value []) := by
    refine ⟨settled.running.touched touched settled.running.holds, ?_, settled.agrees⟩
    intro n circuit here high
    rw [touched.others _ (unwritten n circuit here)]
    exact settled.idle n circuit here high
  obtain ⟨middle, passes, ⟨fed', settled'⟩, same, length, _⟩ :=
    Reaches.fanOut Holds delivers ⟨⟨fed, start⟩, rfl, rfl, touched.known⟩
  have empty : (middle.subject line).queue = [] := by
    rw [same, subject_setOut, if_pos rfl]
    rfl
  have released : Touched line middle (middle.setSubject line (middle.subject line).released) :=
    .setSubject rfl
  have at_rest : loop.Settled 0 fed' (middle.setSubject line (middle.subject line).released) := by
    refine ⟨settled'.running.touched released settled'.running.holds, ?_, settled'.agrees⟩
    intro n circuit here high
    rw [released.others _ (unwritten n circuit here)]
    exact settled'.idle n circuit here high
  obtain ⟨final, ends, alike, kept⟩ := run_quiet (quiet _) at_rest.running.holds
  refine ⟨final, fed', ?_, at_rest.alike alike kept, ?_⟩
  · exact (((Reaches.begun idle).trans passes).trans (.finished empty)).trans ⟨_, ends⟩
  · rw [alike.subscriptions]
    exact length

/-- A publication on any line. -/
theorem publish (line : Line) (settled : loop.Settled 0 fed network)
    (idle : (network.subject line).busy = false)
    (quiet : ∀ audience, (go audience).Quiet (Within 0 loop.kind)) :
    ∃ next fed', network.Reaches [.script (.publish line value go)] next [] ∧
      loop.Settled 0 fed' next ∧
      next.subscriptions.length = network.subscriptions.length := by
  by_cases written : ∃ (n : Nat) (circuit : Circuit), loop.circuits[n]? = some circuit ∧
    circuit.outLine = line
  · obtain ⟨n, circuit, here, rfl⟩ := written
    obtain ⟨next, fed', reaches, settled', beyond⟩ :=
      publish_output go (fun m _ => loop.heals m) here (settled.mono (Nat.zero_le _)) idle
        (.inr (settled.agrees n circuit here (Nat.zero_le _))) quiet
    exact ⟨next, fed', reaches, settled.extend settled' beyond, beyond.length⟩
  · refine publish_elsewhere settled (fun n circuit here writes => ?_) idle quiet
    exact written ⟨n, circuit, here, writes⟩

/-- A rule's subscription is opened leaf by leaf. -/
theorem opening {n : Nat} {circuit : Circuit} (here : loop.circuits[n]? = some circuit)
    (script : PlantScript ς) {leaf : Nat} {leaves : List (Leaf Line)}
    (left : circuit.actions.leaves.drop leaf = leaves) (settled : loop.Settled 0 fed network)
    (past : circuit.outLeaf < leaf →
      (n, circuit.outLeaf) ∈ (network.subject circuit.outLine).listeners) :
    ∃ next fed', network.Reaches [.opening n leaf leaves script] next [.script script] ∧
      loop.Settled 0 fed' next ∧
      next.subscriptions.length = network.subscriptions.length := by
  induction leaves generalizing leaf fed network with
  | nil => exact ⟨network, fed, .of_step rfl, settled, rfl⟩
  | cons first leaves ih =>
    have leaf_at : circuit.actions.leaves[leaf]? = some first := by
      rw [← List.head?_drop, left]
      rfl
    have left' : circuit.actions.leaves.drop (leaf + 1) = leaves := by
      rw [← List.tail_drop, left]
      rfl
    have signal := (loop.layered.settable circuit (List.mem_of_getElem? here)).signal
    cases first with
    | own =>
      have other : leaf ≠ circuit.outLeaf := by
        rintro rfl
        rw [circuit.leaf_out signal] at leaf_at
        exact nomatch leaf_at
      have fits : leaf < circuit.outLeaf ∨
          (n, circuit.outLeaf) ∈ (network.subject circuit.outLine).listeners := by
        rcases Nat.lt_or_gt_of_ne other with inner | outer
        · exact .inl inner
        · exact .inr (past outer)
      obtain ⟨middle, fed', feeds, settled', beyond⟩ :=
        loop.heals n here (settled.mono (Nat.zero_le _)) fits none
      have past' : circuit.outLeaf < leaf + 1 →
          (n, circuit.outLeaf) ∈ (middle.subject circuit.outLine).listeners := by
        intro reached
        rw [beyond.listeners]
        exact past (by omega)
      obtain ⟨last, fed'', opens, settled'', length⟩ :=
        ih left' (settled.extend settled' beyond) past'
      exact ⟨last, fed'', (Reaches.supplied feeds).trans opens, settled'',
        length.trans beyond.length⟩
    | subject line =>
      have joined : loop.Settled 0 fed (network.attach line n leaf) := settled.attach here leaf_at
      have reached : leaf < circuit.outLeaf ∨ (n, circuit.outLeaf) ∈
          ((network.attach line n leaf).subject circuit.outLine).listeners := by
        rcases circuit.side_of_leaf leaf_at with ⟨inner, _⟩ | ⟨rfl, rfl⟩
        · exact .inl inner
        · rw [attach, subject_setSubject_self]
          exact .inr (List.mem_append_right _ (List.mem_singleton_self _))
      have listens : circuit.outLeaf < leaf + 1 → (n, circuit.outLeaf) ∈
          ((network.attach line n leaf).subject circuit.outLine).listeners := by
        intro passed
        exact reached.resolve_left (by omega)
      cases has : (network.subject line).latest with
      | none =>
        obtain ⟨last, fed', opens, settled', length⟩ := ih left' joined listens
        exact ⟨last, fed', (Reaches.attached has).trans opens, settled', length⟩
      | some value =>
        obtain ⟨middle, fed', feeds, settled', beyond⟩ :=
          loop.heals n here (joined.mono (Nat.zero_le _)) reached (some value)
        have past' : circuit.outLeaf < leaf + 1 →
            (n, circuit.outLeaf) ∈ (middle.subject circuit.outLine).listeners := by
          intro passed
          rw [beyond.listeners]
          exact listens passed
        obtain ⟨last, fed'', opens, settled'', length⟩ :=
          ih left' (joined.extend settled' beyond) past'
        exact ⟨last, fed'', (Reaches.replayed has feeds).trans opens, settled'',
          length.trans beyond.length⟩

end Loop

end Switchboard
