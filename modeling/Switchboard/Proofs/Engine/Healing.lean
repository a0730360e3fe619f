import Switchboard.Proofs.Engine.Sending

/-!
# Healing

A feed may leave a rule with an output that differs from its input. The rule
fires then, and its value comes back on its own line while the feed is still
being taken care of. By the time all that has been woken is done, the rule and
all rules of higher rank agree again. The proof goes down the ranks.
-/
namespace Switchboard

open Network

namespace Loop

variable {ς : Type} {loop : Loop ς} {fed : Feeds} {network : PlantNetwork ς}
variable {n : Nat} {circuit : Circuit} {value : Json} (audience : Nat)
variable (go : Nat → PlantScript ς)

/-- With all listeners of the line waiting, the rule agrees or is among them. -/
theorem Sending.ready (sending : loop.Sending n circuit fed network) : circuit.Agrees (fed n) ∨
    (n, circuit.outLeaf) ∈ (network.subject circuit.outLine).listeners :=
  (sending.above.running.heard n circuit sending.here).imp_left circuit.agrees_of_shown

/-- When the queue has been worked off, the rule is at rest and agrees. -/
theorem drain (heals : ∀ m, loop.rank n < loop.rank m → loop.Heals m)
    (sending : loop.Sending n circuit fed network)
    (ready : circuit.Agrees (fed n) ∨ (network.subject circuit.outLine).queue ≠ [])
    (aim : ∀ answer ∈ (network.subject circuit.outLine).queue, circuit.Aims (fed n) answer) :
    ∃ next fed' audience', network.Reaches [.fanOut circuit.outLine value [] audience go] next
        [.script (go audience')] ∧
      loop.Settled (loop.rank n) fed' next ∧ loop.Beyond (loop.rank n) fed network fed' next := by
  generalize waits : (network.subject circuit.outLine).queue = queue at ready aim
  induction queue generalizing fed network value audience with
  | nil =>
    have touched : Touched circuit.outLine network
        (network.setSubject circuit.outLine (network.subject circuit.outLine).released) :=
      .setSubject rfl
    have above := sending.above.touched sending.here touched sending.above.running.holds
    have agrees := ready.resolve_right fun nonempty => nonempty rfl
    refine ⟨_, fed, audience, .finished waits, above.join sending.here ?_ agrees,
      .of_touched sending.here fed touched⟩
    rw [subject_setSubject_self]
    rfl
  | cons first queue ih =>
    have touched := Touched.setOut network circuit.outLine first queue
    have sending' : loop.Sending n circuit fed (network.setOut circuit.outLine first queue) := by
      refine sending.touched touched sending.above.running.holds ?_
      rw [subject_setOut, if_pos rfl]
      rfl
    obtain ⟨aims, aim⟩ := List.forall_mem_cons.mp aim
    have ready' := sending'.ready
    rw [touched.listeners] at ready'
    obtain ⟨middle, fed', passes, halfway, agrees, queue_kept⟩ :=
      pass_aimed (network.subject circuit.outLine).listeners.length go heals sending' aims
        touched.known ready'
    rw [subject_setOut, if_pos rfl] at queue_kept
    have aim' : ∀ answer ∈ queue, circuit.Aims (fed' n) answer := by
      intro answer member
      rw [Circuit.Aims, halfway.truth]
      exact aim answer member
    obtain ⟨last, fed'', audience', drains, settled, beyond⟩ :=
      ih _ halfway.sending queue_kept (.inl agrees) aim'
    refine ⟨last, fed'', audience', ((Reaches.resumed waits).trans passes).trans drains, settled, ?_⟩
    exact ((Beyond.of_touched sending.here fed touched).trans halfway.beyond).trans beyond

/-- A publication on the line of a rule, whose value aims at the input's truth value or is any. -/
theorem publish_output (heals : ∀ m, loop.rank n < loop.rank m → loop.Heals m)
    (here : loop.circuits[n]? = some circuit) (settled : loop.Settled (loop.rank n + 1) fed network)
    (idle : (network.subject circuit.outLine).busy = false)
    (start : circuit.Aims (fed n) value ∨ circuit.Agrees (fed n))
    (quiet : ∀ audience, (go audience).Quiet (Within 0 loop.kind)) :
    ∃ next fed', network.Reaches [.script (.publish circuit.outLine value go)] next [] ∧
      loop.Settled (loop.rank n) fed' next ∧ loop.Beyond (loop.rank n) fed network fed' next := by
  have touched := Touched.setOut network circuit.outLine value []
  have out : (network.setOut circuit.outLine value []).subject circuit.outLine =
      (network.subject circuit.outLine).sending value [] := by
    rw [subject_setOut, if_pos rfl]
  have sending : loop.Sending n circuit fed (network.setOut circuit.outLine value []) := by
    refine ⟨here, settled.touched here touched settled.running.holds, ?_⟩
    rw [out]
    rfl
  have ready := sending.ready
  rw [touched.listeners] at ready
  obtain ⟨middle, fed', passes, halfway, ready', aim⟩ : ∃ middle fed',
      (network.setOut circuit.outLine value []).Reaches
          [.fanOut circuit.outLine value (network.subject circuit.outLine).listeners
            (network.subject circuit.outLine).listeners.length go] middle
          [.fanOut circuit.outLine value [] (network.subject circuit.outLine).listeners.length go] ∧
        loop.Halfway n circuit fed (network.setOut circuit.outLine value []) [] fed' middle ∧
        (circuit.Agrees (fed' n) ∨ (middle.subject circuit.outLine).queue ≠ []) ∧
        ∀ answer ∈ (middle.subject circuit.outLine).queue, circuit.Aims (fed n) answer := by
    rcases start with aims | agrees
    · obtain ⟨middle, fed', passes, halfway, agrees, queue⟩ :=
        pass_aimed (network.subject circuit.outLine).listeners.length go heals sending aims
          touched.known ready
      rw [out] at queue
      refine ⟨middle, fed', passes, halfway, .inl agrees, ?_⟩
      rw [queue]
      exact nofun
    · exact pass_free (network.subject circuit.outLine).listeners.length go heals sending agrees
        (by rw [out]; rfl) touched.known
  have aim' : ∀ answer ∈ (middle.subject circuit.outLine).queue, circuit.Aims (fed' n) answer := by
    intro answer member
    rw [Circuit.Aims, halfway.truth]
    exact aim answer member
  obtain ⟨last, fed'', audience', drains, settled', beyond⟩ :=
    drain _ go heals halfway.sending ready' aim'
  obtain ⟨final, ends, alike, kept⟩ := run_quiet (quiet audience') settled'.running.holds
  have at_end := Touched.of_alike circuit.outLine alike
  refine ⟨final, fed'', ?_, settled'.alike alike kept, ?_⟩
  · exact (((Reaches.begun idle).trans passes).trans drains).trans ⟨_, ends⟩
  · exact (((Beyond.of_touched here fed touched).trans halfway.beyond).trans beyond).trans
      (.of_touched here fed'' at_end)

/-- A rule heals if all rules above it do. -/
theorem heals_of_above (heals : ∀ m, loop.rank n < loop.rank m → loop.Heals m) : loop.Heals n := by
  intro fed network circuit leaf here settled fits incoming
  obtain ⟨drive, output, stands⟩ := settled.running.stands n circuit here
  obtain ⟨_, fired, course, woken, _⟩ := feed_course stands leaf incoming
  have beyond : loop.Beyond (loop.rank n) fed network (fed.more n (leaf, incoming))
      (network.feed n leaf incoming).1 := .of_feed ..
  have above := (settled.mono (Nat.le_succ _)).feed here fits incoming
  have idle : ((network.feed n leaf incoming).1.subject circuit.outLine).busy = false := by
    rw [feed_subject]
    exact settled.idle n circuit here (Nat.le_refl _)
  cases fired with
  | none =>
    refine ⟨_, _, ?_, above.join here idle ?_, beyond⟩
    · rw [woken]
      exact .refl _ _
    · rw [Feeds.more_self]
      exact (settled.agrees n circuit here (Nat.le_refl _)).of_silent
        (course.trans (List.append_nil _))
  | some action =>
    obtain ⟨input, _⟩ := Circuit.differs_of_emits (show Stream.Emits _ _ _ action from course)
    have settable := loop.layered.settable circuit (List.mem_of_getElem? here)
    obtain ⟨answer, gives, reads⟩ := settable.reads action
    rw [← output] at gives
    have leads := drive.leads_fire loop.echoing gives
    rw [output] at leads
    obtain ⟨ready, go, first, alike, kept, quiet⟩ := run_leads leads above.running.holds
    rw [← subject_congr alike.subjects] at idle
    have aims : circuit.Aims (fed.more n (leaf, incoming) n) answer := by
      rw [Feeds.more_self]
      exact ⟨_, input, reads⟩
    obtain ⟨last, fed', publishes, settled', beyond'⟩ :=
      publish_output go heals here (above.alike alike kept) idle (.inl aims) quiet
    refine ⟨last, fed', ?_, settled', ?_⟩
    · rw [woken]
      exact Reaches.trans ⟨_, first⟩ publishes
    · exact (beyond.trans (.of_touched here _ (.of_alike _ alike))).trans beyond'

/-- All rules heal. -/
theorem heals (loop : Loop ς) (n : Nat) : loop.Heals n := by
  have bounded : ∃ top, ∀ n < loop.circuits.length, loop.rank n < top := by
    induction loop.circuits.length with
    | zero => exact ⟨0, nofun⟩
    | succ count ih =>
      obtain ⟨top, below⟩ := ih
      refine ⟨max top (loop.rank count + 1), fun n small => ?_⟩
      by_cases last : n = count
      · rw [last]
        omega
      · have := below n (by omega)
        omega
  obtain ⟨top, below⟩ := bounded
  -- The ranks are gone down from the top.
  have descending (gap : Nat) : ∀ n, top ≤ loop.rank n + gap → loop.Heals n := by
    induction gap with
    | zero =>
      intro n high fed network circuit leaf here
      have := below n (List.getElem?_eq_some_iff.mp here).1
      omega
    | succ gap ih =>
      intro n high
      exact heals_of_above fun m above => ih m (by omega)
  exact descending top n (by omega)

end Loop

end Switchboard
