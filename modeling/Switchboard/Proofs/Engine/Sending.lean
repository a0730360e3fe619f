import Switchboard.Proofs.Engine.Loop

/-!
# A value on the line of an output

On the line of a rule listen the rule itself and rules of higher rank. Suppose
that the latter take care of a value so that they agree afterwards. A value
that aims at the truth value of the rule's input makes the rule agree, and the
rule does not answer it. Any other value may be answered by the rule while the
fan-out is running; the answers wait in the queue, and all of them aim at the
truth value of the input, which does not change meanwhile.
-/
namespace Switchboard

open Network

/-- A value that the output reads as the truth value of the input. -/
def Circuit.Aims (circuit : Circuit) (feeds : List (Nat × Option Json)) (value : Json) : Prop :=
  ∃ b, circuit.truth feeds = some b ∧ circuit.output.reading value = some b

namespace Loop

variable {ς : Type} {loop : Loop ς} {bound bound' : Nat} {fed fed' : Feeds}
variable {network next : PlantNetwork ς}

/-- Taking care of a feed leaves a rule and all above it in agreement. -/
def Heals (loop : Loop ς) (n : Nat) : Prop :=
  ∀ ⦃fed : Feeds⦄ ⦃network : PlantNetwork ς⦄ ⦃circuit : Circuit⦄ ⦃leaf : Nat⦄,
    loop.circuits[n]? = some circuit → loop.Settled (loop.rank n) fed network →
    (leaf < circuit.outLeaf ∨
      (n, circuit.outLeaf) ∈ (network.subject circuit.outLine).listeners) →
    ∀ incoming, ∃ next fed', (network.feed n leaf incoming).1.Reaches
        (network.feed n leaf incoming).2 next [] ∧
      loop.Settled (loop.rank n) fed' next ∧ loop.Beyond (loop.rank n) fed network fed' next

/-- A value is on its way on the line of a rule; the rules above are at rest and agree. -/
structure Sending (loop : Loop ς) (n : Nat) (circuit : Circuit) (fed : Feeds)
    (network : PlantNetwork ς) : Prop where
  here : loop.circuits[n]? = some circuit
  above : loop.Settled (loop.rank n + 1) fed network
  busy : (network.subject circuit.outLine).busy = true

namespace Sending

variable {n : Nat} {circuit : Circuit}

/-- The queue of the rule's line may change, and the memory. -/
theorem touched (sending : loop.Sending n circuit fed network)
    (touched : Touched circuit.outLine network next) (holds : Within 0 loop.kind next.memory)
    (busy : (next.subject circuit.outLine).busy = true) : loop.Sending n circuit fed next :=
  ⟨sending.here, sending.above.touched sending.here touched holds, busy⟩

/-- A rule above takes care of the value. -/
theorem neighbour (sending : loop.Sending n circuit fed network) {m leaf : Nat} {other : Circuit}
    (heals : loop.Heals m) (there : loop.circuits[m]? = some other)
    (higher : loop.rank n < loop.rank m) (inner : leaf < other.outLeaf) (value : Json) :
    ∃ next fed', (network.feed m leaf (some value)).1.Reaches
        (network.feed m leaf (some value)).2 next [] ∧
      loop.Sending n circuit fed' next ∧
      loop.Beyond (loop.rank n + 1) fed network fed' next := by
  obtain ⟨next, fed', reaches, settled, beyond⟩ :=
    heals there (sending.above.mono higher) (.inl inner) (some value)
  refine ⟨next, fed', reaches, ⟨sending.here, ?_, ?_⟩, beyond.mono higher⟩
  · exact sending.above.extend settled beyond
  · rw [beyond.line_below sending.here higher]
    exact sending.busy

/-- The rule itself takes the value in. -/
theorem own (sending : loop.Sending n circuit fed network)
    (listening : (n, circuit.outLeaf) ∈ (network.subject circuit.outLine).listeners)
    (value : Json) :
    loop.Sending n circuit (fed.more n (circuit.outLeaf, some value))
      (network.feed n circuit.outLeaf (some value)).1 := by
  refine ⟨sending.here, sending.above.feed sending.here (.inr listening) _, ?_⟩
  rw [feed_subject]
  exact sending.busy

/-- On the line listen the rule itself and rules above it. -/
theorem listener (sending : loop.Sending n circuit fed network) {m leaf : Nat}
    (listening : (m, leaf) ∈ (network.subject circuit.outLine).listeners) :
    (m = n ∧ leaf = circuit.outLeaf) ∨ ∃ other, loop.circuits[m]? = some other ∧
      loop.rank n < loop.rank m ∧ leaf < other.outLeaf := by
  obtain ⟨other, there, ⟨inner, reads⟩ | ⟨output, writes⟩⟩ :=
    sending.above.running.side listening
  · exact .inr ⟨other, there, reads n circuit sending.here rfl, inner⟩
  · have m_is_n : m = n := writer_unique there sending.here writes.symm
    rw [m_is_n, sending.here] at there
    obtain rfl := Option.some.inj there
    exact .inl ⟨m_is_n, output⟩

/-- A value that aims at the input's truth value is not answered, and the rule agrees with it. -/
theorem take_aimed (sending : loop.Sending n circuit fed network) {value : Json}
    (aims : circuit.Aims (fed n) value) :
    (network.feed n circuit.outLeaf (some value)).2 = [] ∧
      circuit.Agrees (fed n ++ [(circuit.outLeaf, some value)]) := by
  obtain ⟨b, input, reads⟩ := aims
  have signal := (loop.layered.settable circuit (List.mem_of_getElem? sending.here)).signal
  have truth : circuit.truth (fed n ++ [(circuit.outLeaf, some value)]) = circuit.truth (fed n) :=
    Circuit.truth_output (Nat.le_refl _) (some value)
  have shown : circuit.shown (fed n ++ [(circuit.outLeaf, some value)]) = some b := by
    rw [circuit.shown_value signal, reads, Option.some_or]
  refine ⟨?_, circuit.agrees_of_eq (shown.trans (truth.trans input).symm)⟩
  obtain ⟨drive, _, stands⟩ := sending.above.running.stands n circuit sending.here
  obtain ⟨_, fired, course, woken, _⟩ := feed_course stands circuit.outLeaf (some value)
  cases fired with
  | none => exact woken
  | some action =>
    obtain ⟨input', output'⟩ := Circuit.differs_of_emits (show Stream.Emits _ _ _ action from course)
    rw [truth, input] at input'
    rw [shown] at output'
    have same : b = action.isOn := Option.some.inj input'
    have differ : b = !action.isOn := Option.some.inj output'
    rw [same] at differ
    exact absurd differ (by simp)

end Sending

/--
The fan-out of a value on the line of a rule, with some listeners waiting: from the feeds and the
network it has set out with to those it has come to.
-/
structure Halfway (loop : Loop ς) (n : Nat) (circuit : Circuit) (fed : Feeds)
    (network : PlantNetwork ς) (waiting : List (Nat × Nat)) (fed' : Feeds)
    (now : PlantNetwork ς) : Prop where
  sending : loop.Sending n circuit fed' now
  truth : circuit.truth (fed' n) = circuit.truth (fed n)
  beyond : loop.Beyond (loop.rank n) fed network fed' now
  known : ∀ listener ∈ waiting, listener ∈ (now.subject circuit.outLine).listeners

namespace Halfway

variable {n m leaf : Nat} {circuit : Circuit} {waiting : List (Nat × Nat)}
variable {now : PlantNetwork ς}

theorem start (sending : loop.Sending n circuit fed network)
    (known : ∀ listener ∈ waiting, listener ∈ (network.subject circuit.outLine).listeners) :
    loop.Halfway n circuit fed network waiting fed network :=
  ⟨sending, rfl, .refl _ _ _, known⟩

theorem own (halfway : loop.Halfway n circuit fed network ((n, circuit.outLeaf) :: waiting) fed' now)
    (value : Json) :
    loop.Halfway n circuit fed network waiting (fed'.more n (circuit.outLeaf, some value))
      (now.feed n circuit.outLeaf (some value)).1 := by
  obtain ⟨first, known⟩ := List.forall_mem_cons.mp halfway.known
  refine ⟨halfway.sending.own first value, ?_, halfway.beyond.trans (.of_feed ..), ?_⟩
  · rw [Feeds.more_self, Circuit.truth_output (Nat.le_refl _), halfway.truth]
  · rw [feed_subject]
    exact known

/-- A rule above takes its turn; for the rule itself nothing changes. -/
theorem neighbour (halfway : loop.Halfway n circuit fed network ((m, leaf) :: waiting) fed' now)
    (heals : loop.Heals m) {other : Circuit} (there : loop.circuits[m]? = some other)
    (higher : loop.rank n < loop.rank m) (inner : leaf < other.outLeaf) (value : Json) :
    ∃ next fed'', (now.feed m leaf (some value)).1.Reaches (now.feed m leaf (some value)).2 next [] ∧
      loop.Halfway n circuit fed network waiting fed'' next ∧ fed'' n = fed' n ∧
      next.subject circuit.outLine = now.subject circuit.outLine := by
  obtain ⟨next, fed'', reaches, sending, beyond⟩ :=
    halfway.sending.neighbour heals there higher inner value
  have kept := beyond.fed n (Nat.lt_succ_self _)
  have same_line := beyond.line_below halfway.sending.here (Nat.lt_succ_self _)
  refine ⟨next, fed'', reaches, ⟨sending, ?_, ?_, ?_⟩, kept, same_line⟩
  · rw [kept, halfway.truth]
  · exact halfway.beyond.trans (beyond.mono (Nat.le_succ _))
  · rw [same_line]
    exact (List.forall_mem_cons.mp halfway.known).2

end Halfway

variable {n : Nat} {circuit : Circuit} {value : Json} {waiting : List (Nat × Nat)}
variable (audience : Nat) (go : Nat → PlantScript ς)

/-- After the fan-out of a value that aims at the input's truth value, the rule agrees. -/
theorem pass_aimed (heals : ∀ m, loop.rank n < loop.rank m → loop.Heals m)
    (sending : loop.Sending n circuit fed network) (aims : circuit.Aims (fed n) value)
    (known : ∀ listener ∈ waiting, listener ∈ (network.subject circuit.outLine).listeners)
    (ready : circuit.Agrees (fed n) ∨ (n, circuit.outLeaf) ∈ waiting) :
    ∃ next fed', network.Reaches [.fanOut circuit.outLine value waiting audience go] next
        [.fanOut circuit.outLine value [] audience go] ∧
      loop.Halfway n circuit fed network [] fed' next ∧ circuit.Agrees (fed' n) ∧
      (next.subject circuit.outLine).queue = (network.subject circuit.outLine).queue := by
  let Holds (waiting : List (Nat × Nat)) (now : PlantNetwork ς) : Prop :=
    ∃ fed', loop.Halfway n circuit fed network waiting fed' now ∧
      (now.subject circuit.outLine).queue = (network.subject circuit.outLine).queue ∧
      (circuit.Agrees (fed' n) ∨ (n, circuit.outLeaf) ∈ waiting)
  have delivers : ∀ m leaf waiting now, Holds ((m, leaf) :: waiting) now →
      ∃ next : PlantNetwork ς, (now.feed m leaf (some value)).1.Reaches
        (now.feed m leaf (some value)).2 next [] ∧ Holds waiting next := by
    rintro m leaf waiting now ⟨fed', halfway, queue, ready⟩
    have listening := halfway.known _ List.mem_cons_self
    rcases halfway.sending.listener listening with ⟨rfl, rfl⟩ | ⟨other, there, higher, inner⟩
    · have aims' : circuit.Aims (fed' m) value := by
        rw [Circuit.Aims, halfway.truth]
        exact aims
      obtain ⟨woken, agrees⟩ := halfway.sending.take_aimed aims'
      refine ⟨(now.feed m circuit.outLeaf (some value)).1, ?_, _, halfway.own value, ?_, .inl ?_⟩
      · rw [woken]
        exact .refl _ _
      · rw [feed_subject, queue]
      · rw [Feeds.more_self]
        exact agrees
    · obtain ⟨next, fed'', reaches, halfway', kept, same_line⟩ :=
        halfway.neighbour (heals m higher) there higher inner value
      refine ⟨next, reaches, fed'', halfway', ?_, ?_⟩
      · rw [same_line, queue]
      · rw [kept]
        refine ready.imp_right fun member => ?_
        rcases List.mem_cons.mp member with same | member
        · injection same with same
          rw [same] at higher
          exact absurd higher (Nat.lt_irrefl _)
        · exact member
  obtain ⟨next, reaches, fed', halfway, queue, agrees | missing⟩ :=
    Reaches.fanOut Holds delivers ⟨fed, .start sending known, rfl, ready⟩
  · exact ⟨next, fed', reaches, halfway, agrees, queue⟩
  · exact absurd missing List.not_mem_nil

/-- A rule that fires while a value is on its way on its line puts an answer into the queue. -/
theorem Sending.answer (sending : loop.Sending n circuit fed network) {drive : Drive}
    (output : drive.output = circuit.output) {action : Action}
    (input : circuit.truth (fed n) = some action.isOn) :
    ∃ next answer, network.Reaches [.script (drive.fire loop.sink action)] next [] ∧
      loop.Sending n circuit fed next ∧ loop.Beyond (loop.rank n) fed network fed next ∧
      circuit.Aims (fed n) answer ∧ (next.subject circuit.outLine).queue =
        (network.subject circuit.outLine).queue ++ [answer] := by
  have settable := loop.layered.settable circuit (List.mem_of_getElem? sending.here)
  obtain ⟨answer, gives, reads⟩ := settable.reads action
  rw [← output] at gives
  have leads := drive.leads_fire loop.echoing gives
  rw [output] at leads
  obtain ⟨ready, go, first, alike, kept, quiet⟩ := run_leads leads sending.above.running.holds
  have same_subject := subject_congr alike.subjects
  have busy : (ready.subject circuit.outLine).busy = true := by
    rw [same_subject]
    exact sending.busy
  have kept' : Within 0 loop.kind (ready.setSubject circuit.outLine
      ((ready.subject circuit.outLine).queueing answer)).memory := kept
  obtain ⟨last, ends, alike', kept''⟩ := run_quiet (quiet _) kept'
  have line : last.subject circuit.outLine =
      (network.subject circuit.outLine).queueing answer := by
    rw [subject_congr alike'.subjects, subject_setSubject_self, same_subject]
  have queues : Touched circuit.outLine ready (ready.setSubject circuit.outLine
      ((ready.subject circuit.outLine).queueing answer)) := .setSubject rfl
  have touched : Touched circuit.outLine network last :=
    ((Touched.of_alike _ alike).trans queues).trans (.of_alike _ alike')
  refine ⟨last, answer, ?_, sending.touched touched kept'' ?_, .of_touched sending.here fed touched,
    ⟨_, input, reads⟩, ?_⟩
  · exact (Reaches.trans ⟨_, first⟩ (.queued busy)).trans ⟨_, ends⟩
  · rw [line]
    exact sending.busy
  · rw [line]
    rfl

/-- After the fan-out of any value, the rule agrees, or answers of its own are waiting. -/
theorem pass_free (heals : ∀ m, loop.rank n < loop.rank m → loop.Heals m)
    (sending : loop.Sending n circuit fed network) (agrees : circuit.Agrees (fed n))
    (empty : (network.subject circuit.outLine).queue = [])
    (known : ∀ listener ∈ waiting, listener ∈ (network.subject circuit.outLine).listeners) :
    ∃ next fed', network.Reaches [.fanOut circuit.outLine value waiting audience go] next
        [.fanOut circuit.outLine value [] audience go] ∧
      loop.Halfway n circuit fed network [] fed' next ∧
      (circuit.Agrees (fed' n) ∨ (next.subject circuit.outLine).queue ≠ []) ∧
      ∀ answer ∈ (next.subject circuit.outLine).queue, circuit.Aims (fed n) answer := by
  let Holds (waiting : List (Nat × Nat)) (now : PlantNetwork ς) : Prop :=
    ∃ fed', loop.Halfway n circuit fed network waiting fed' now ∧
      (circuit.Agrees (fed' n) ∨ (now.subject circuit.outLine).queue ≠ []) ∧
      ∀ answer ∈ (now.subject circuit.outLine).queue, circuit.Aims (fed n) answer
  have delivers : ∀ m leaf waiting now, Holds ((m, leaf) :: waiting) now →
      ∃ next : PlantNetwork ς, (now.feed m leaf (some value)).1.Reaches
        (now.feed m leaf (some value)).2 next [] ∧ Holds waiting next := by
    rintro m leaf waiting now ⟨fed', halfway, ready, aim⟩
    have listening := halfway.known _ List.mem_cons_self
    rcases halfway.sending.listener listening with ⟨rfl, rfl⟩ | ⟨other, there, higher, inner⟩
    · have halfway' := halfway.own value
      obtain ⟨drive, output, stands⟩ :=
        halfway.sending.above.running.stands m circuit halfway.sending.here
      obtain ⟨_, fired, course, woken, _⟩ := feed_course stands circuit.outLeaf (some value)
      cases fired with
      | none =>
        refine ⟨(now.feed m circuit.outLeaf (some value)).1, ?_, _, halfway', ?_, ?_⟩
        · rw [woken]
          exact .refl _ _
        · rw [Feeds.more_self, feed_subject]
          exact ready.imp_left fun agrees =>
            agrees.of_silent (course.trans (List.append_nil _))
        · rw [feed_subject]
          exact aim
      | some action =>
        obtain ⟨input, _⟩ := Circuit.differs_of_emits (show Stream.Emits _ _ _ action from course)
        rw [← Feeds.more_self] at input
        obtain ⟨next, answer, reaches, sending', beyond, aims, queue⟩ :=
          halfway'.sending.answer output input
        refine ⟨next, ?_, _, ⟨sending', halfway'.truth, halfway'.beyond.trans beyond, ?_⟩,
          .inr ?_, ?_⟩
        · rw [woken]
          exact reaches
        · rw [beyond.listeners]
          exact halfway'.known
        · rw [queue]
          exact List.append_ne_nil_of_right_ne_nil _ (List.cons_ne_nil _ _)
        · rw [queue, feed_subject, List.forall_mem_append, List.forall_mem_singleton]
          rw [Circuit.Aims, halfway'.truth] at aims
          exact ⟨aim, aims⟩
    · obtain ⟨next, fed'', reaches, halfway', kept, same_line⟩ :=
        halfway.neighbour (heals m higher) there higher inner value
      refine ⟨next, reaches, fed'', halfway', ?_, ?_⟩
      · rw [kept, same_line]
        exact ready
      · rw [same_line]
        exact aim
  have none_yet : ∀ answer ∈ (network.subject circuit.outLine).queue,
      circuit.Aims (fed n) answer := by
    rw [empty]
    exact nofun
  obtain ⟨next, reaches, fed', halfway, ready, aim⟩ :=
    Reaches.fanOut Holds delivers ⟨fed, .start sending known, .inl agrees, none_yet⟩
  exact ⟨next, fed', reaches, halfway, ready, aim⟩

end Loop

end Switchboard
