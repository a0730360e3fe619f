import Switchboard.Proofs.Host.Schedule

/-!
# What is in the queues of the service

Two accounts hold whenever one looks. Towards the output, what has been written,
what is on its way to the writer and what has not been handed on make up the
deliveries of the engine. From the input, what has been published, what is on
its way to the pump and what will still be read make up the updates of the lines
before the first one that is no text; the engine stands where one would stand
that has had the first of these.
-/
namespace Switchboard

namespace Engine

variable {ς : Type} {engine middle last : Engine ς}

theorem publishes_append_iff {values more : List (String × Json)} :
    engine.Publishes (values ++ more) last ↔
      ∃ middle, engine.Publishes values middle ∧ middle.Publishes more last := by
  induction values generalizing engine with
  | nil =>
    constructor
    · exact fun publishes => ⟨engine, .nil engine, publishes⟩
    · rintro ⟨middle, nothing, publishes⟩
      obtain rfl := nothing.unique (.nil engine)
      exact publishes
  | cons first rest ih =>
    obtain ⟨path, value⟩ := first
    simp only [List.cons_append, publishes_cons_iff, ih]
    constructor
    · rintro ⟨budget, next, audience, published, middle, rest_ends, ends⟩
      exact ⟨middle, ⟨budget, next, audience, published, rest_ends⟩, ends⟩
    · rintro ⟨middle, ⟨budget, next, audience, published, rest_ends⟩, ends⟩
      exact ⟨budget, next, audience, published, middle, rest_ends, ends⟩

end Engine

namespace Host

open Engine

theorem written_append (deliveries : List Delivery) (delivery : Delivery) :
    written (deliveries ++ [delivery]) = written deliveries ++ reported delivery := by
  simp [written, String.join]

/-- What the service publishes is published on the bus of its engine. -/
theorem Service.of_publish {service after : Service} {budget : Nat} {update : Update}
    (publishes : service.publish budget update = some after) : ∃ engine audience,
      (noteAs .trace .host ("update " ++ update.path ++ " = " ++ update.value.text)
        service.engine).publish budget update.path update.value = some (engine, audience) ∧
      after = { service with engine := engine, updates := service.updates + 1 } := by
  obtain ⟨⟨engine, audience⟩, published, rfl⟩ := Option.map_eq_some_iff.mp publishes
  exact ⟨engine, audience, published, rfl⟩

theorem deliveries_of_publish {service after : Service} {budget : Nat} {update : Update}
    (publishes : service.publish budget update = some after) :
    service.deliveries <+: after.deliveries := by
  obtain ⟨engine, audience, published, rfl⟩ := Service.of_publish publishes
  have grown := Engine.deliveries_publish published
  rw [noteAs, Engine.deliveries_note] at grown
  exact grown

namespace Tasks

variable {tasks next : Tasks}

theorem closed_of_phase {phase : Phase} (here : tasks.phase = phase)
    (late : phase ≠ .starting ∧ phase ≠ .pumping) : ¬tasks.Open := by
  rintro (starting | pumping)
  · exact late.1 (here.symm.trans starting)
  · exact late.2 (here.symm.trans pumping)

/-- The account of deliveries. -/
structure Output (tasks : Tasks) : Prop where
  order : ∃ done, tasks.written = Host.written done ∧ tasks.outputs = done.length ∧
    tasks.service.deliveries = done ++ tasks.outbox ++ tasks.unsent
  sent : tasks.sent ≤ tasks.service.deliveries.length
  drained : ¬tasks.Open → tasks.unsent = []
  emptied : tasks.phase = .finished → tasks.outbox = []

namespace Output

/-- What has nothing to do with deliveries leaves their account alone. -/
theorem keep (output : tasks.Output) (same : next.service.deliveries = tasks.service.deliveries)
    (sent : next.sent = tasks.sent) (outbox : next.outbox = tasks.outbox)
    (written : next.written = tasks.written) (outputs : next.outputs = tasks.outputs)
    (drained : ¬next.Open → tasks.unsent = [])
    (emptied : next.phase = .finished → tasks.outbox = []) : next.Output := by
  have unsent : next.unsent = tasks.unsent := by rw [unsent, unsent, same, sent]
  refine ⟨?_, ?_, ?_, ?_⟩
  · rw [written, outputs, same, outbox, unsent]
    exact output.order
  · rw [sent, same]
    exact output.sent
  · rw [unsent]
    exact drained
  · rw [outbox]
    exact emptied

theorem turn (output : tasks.Output) (turn : tasks.Turn next) : next.Output := by
  cases turn with
  | listening phase sent => exact output.keep rfl rfl rfl rfl rfl (fun _ => sent) nofun
  | ended reading unread notes =>
    exact output.keep notes.deliveries rfl rfl rfl rfl output.drained output.emptied
  | passedOn reading phase unread here notes =>
    exact output.keep notes.deliveries rfl rfl rfl rfl output.drained output.emptied
  | refused reading phase unread notes =>
    exact output.keep notes.deliveries rfl rfl rfl rfl output.drained output.emptied
  | skipped reading unread here notes =>
    exact output.keep notes.deliveries rfl rfl rfl rfl output.drained output.emptied
  | failed reading unread here notes =>
    exact output.keep notes.deliveries rfl rfl rfl rfl output.drained output.emptied
  | @published service budget update rest phase sent inbox publishes =>
    obtain ⟨done, written, outputs, order⟩ := output.order
    obtain ⟨more, grown⟩ := deliveries_of_publish publishes
    have unsent : service.deliveries.drop tasks.sent = more := by
      rw [← grown, List.drop_append_of_le_length output.sent,
        show tasks.service.deliveries.drop tasks.sent = [] from sent, List.nil_append]
    refine ⟨⟨done, written, outputs, ?_⟩, ?_, fun closed => absurd (.inr phase) closed, ?_⟩
    · show service.deliveries = _ ++ service.deliveries.drop tasks.sent
      rw [unsent, ← grown, order, sent, List.append_nil]
    · show tasks.sent ≤ service.deliveries.length
      rw [← grown, List.length_append]
      exact Nat.le_add_right_of_le output.sent
    · exact output.emptied
  | @handedOn delivery rest unsent =>
    obtain ⟨done, written, outputs, order⟩ := output.order
    refine ⟨⟨done, written, outputs, ?_⟩, ?_, fun closed => ?_, fun finished => ?_⟩
    · show tasks.service.deliveries = _ ++ tasks.service.deliveries.drop (tasks.sent + 1)
      rw [drop_of_unsent unsent, order, unsent]
      simp
    · have left := congrArg List.length unsent
      rw [Tasks.unsent, List.length_drop, List.length_cons] at left
      show tasks.sent + 1 ≤ tasks.service.deliveries.length
      omega
    · exact nomatch (output.drained closed).symm.trans unsent
    · exact nomatch (output.drained (closed_of_phase finished (by decide))).symm.trans unsent
  | @wrote delivery rest outbox =>
    obtain ⟨done, written, outputs, order⟩ := output.order
    refine ⟨⟨done ++ [delivery], ?_, ?_, ?_⟩, output.sent, output.drained, fun finished => ?_⟩
    · rw [written_append, written]
    · rw [outputs, List.length_append, List.length_singleton]
    · show tasks.service.deliveries = _ ++ rest ++ tasks.unsent
      rw [order, outbox]
      simp
    · exact nomatch (output.emptied finished).symm.trans outbox
  | told untold phase => exact output.keep rfl rfl rfl rfl rfl output.drained output.emptied
  | left phase sent inbox reading => exact output.keep rfl rfl rfl rfl rfl (fun _ => sent) nofun
  | quit phase sent told notes =>
    exact output.keep notes.deliveries rfl rfl rfl rfl (fun _ => sent) nofun
  | aborted phase reading => exact output.keep rfl rfl rfl rfl rfl output.drained output.emptied
  | stopped phase reading same =>
    have drained := output.drained (closed_of_phase phase (by decide))
    exact output.keep same.deliveries rfl rfl rfl rfl (fun _ => drained) nofun
  | finished phase outbox same =>
    have drained := output.drained (closed_of_phase phase (by decide))
    exact output.keep same.deliveries rfl rfl rfl rfl (fun _ => drained) fun _ => outbox

theorem complete (output : tasks.Output) (finished : tasks.phase = .finished) :
    tasks.written = Host.written tasks.service.deliveries ∧
      tasks.outputs = tasks.service.deliveries.length := by
  obtain ⟨done, written, outputs, order⟩ := output.order
  have drained := output.drained (closed_of_phase finished (by decide))
  rw [output.emptied finished, drained, List.append_nil, List.append_nil] at order
  rw [order]
  exact ⟨written, outputs⟩

end Output

/-- The updates that the reader will still come by: none any more when it has ended. -/
def coming (tasks : Tasks) : List Update :=
  if tasks.phase = .starting ∨ tasks.reading = true then accepted (legible tasks.unread) else []

theorem coming_of_reading (reading : tasks.reading = true) :
    tasks.coming = accepted (legible tasks.unread) :=
  if_pos (.inr reading)

theorem coming_of_starting (starting : tasks.phase = .starting) :
    tasks.coming = accepted (legible tasks.unread) :=
  if_pos (.inl starting)

theorem coming_of_ended (phase : tasks.phase ≠ .starting) (reading : tasks.reading = false) :
    tasks.coming = [] :=
  if_neg fun still => still.elim phase (Bool.eq_false_iff.mp reading)

/-- The account of updates, beside an engine that is given them one after the other. -/
structure Intake (loopback : Bool) (updates : List Update) (started : Engine Outlet)
    (report : StartReport) (tasks : Tasks) : Prop where
  report : tasks.service.report = report
  count : tasks.service.updates = tasks.published.length
  beside : ∃ engine, started.Publishes (values tasks.published) engine ∧
    engine.deliveries = tasks.service.deliveries ∧
    (tasks.Open → Mirrors loopback engine tasks.service.engine)
  order : tasks.Open → updates = tasks.published ++ tasks.inbox ++ tasks.coming
  first : tasks.published <+: updates
  waiting : tasks.phase = .starting → tasks.reading = false
  whole : ¬tasks.Open → tasks.told = false → tasks.published = updates

namespace Intake

variable {loopback : Bool} {updates : List Update} {started : Engine Outlet}
  {report : StartReport}

/-- When no update is published, the engine beside the service stays what it is. -/
theorem keep (intake : Intake loopback updates started report tasks)
    (same : tasks.service.Same next.service) (published : next.published = tasks.published)
    (mirrors : next.Open → tasks.Open ∧ ∀ engine, Mirrors loopback engine tasks.service.engine →
      Mirrors loopback engine next.service.engine)
    (pending : next.Open → next.inbox ++ next.coming = tasks.inbox ++ tasks.coming)
    (waiting : next.phase = .starting → next.reading = false)
    (whole : ¬next.Open → next.told = false → tasks.published = updates) :
    Intake loopback updates started report next := by
  obtain ⟨engine, publishes, deliveries, beside⟩ := intake.beside
  have order : next.Open → updates = next.published ++ next.inbox ++ next.coming := by
    intro opened
    rw [intake.order (mirrors opened).1, List.append_assoc, List.append_assoc, pending opened,
      published]
  rw [← published] at publishes whole
  refine ⟨same.report.trans intake.report, ?_, ⟨engine, publishes, ?_, fun opened => ?_⟩, order, ?_,
    waiting, whole⟩
  · rw [same.updates, published, intake.count]
  · exact deliveries.trans same.deliveries.symm
  · exact (mirrors opened).2 engine (beside (mirrors opened).1)
  · rw [published]
    exact intake.first

/-- A reader is at work only when the rules have started. -/
theorem started_of_reading (intake : Intake loopback updates started report tasks)
    (reading : tasks.reading = true) : tasks.phase ≠ .starting :=
  fun starting => nomatch reading.symm.trans (intake.waiting starting)

/-- The engine beside the service is given what the service publishes. -/
theorem publish (intake : Intake loopback updates started report tasks)
    (phase : tasks.phase = .pumping) {budget : Nat} {update : Update} {service : Service}
    {rest : List Update} (inbox : tasks.inbox = update :: rest)
    (publishes : tasks.service.publish budget update = some service) :
    Intake loopback updates started report { tasks with
      service := service, inbox := rest, published := tasks.published ++ [update] } := by
  obtain ⟨engine, leads, _, beside⟩ := intake.beside
  obtain ⟨after, audience, published, rfl⟩ := Service.of_publish publishes
  have noted := (beside (.inr phase)).noteAs .trace .host
    ("update " ++ update.path ++ " = " ++ update.value.text)
  obtain ⟨least, after', mirrors, ends⟩ := noted.symm.publish published
  have order : updates = (tasks.published ++ [update]) ++ rest ++ tasks.coming := by
    rw [intake.order (.inr phase), inbox]
    simp
  refine ⟨intake.report, ?_, ⟨after', ?_, mirrors.deliveries.symm, fun _ => mirrors.symm⟩,
    fun _ => order, ?_, intake.waiting,
    fun closed => absurd (.inr phase) closed⟩
  · rw [List.length_append, List.length_singleton, ← intake.count]
  · rw [values, List.map_append]
    exact publishes_append_iff.mpr ⟨engine, leads, publishes_cons_iff.mpr
      ⟨least, after', audience, ends least le_rfl, .nil after'⟩⟩
  · rw [order, List.append_assoc]
    exact List.prefix_append _ _

theorem turn (intake : Intake loopback updates started report tasks) (turn : tasks.Turn next) :
    Intake loopback updates started report next := by
  cases turn with
  | listening phase sent =>
    refine intake.keep ⟨rfl, rfl, rfl⟩ rfl (fun _ => ⟨.inl phase, fun _ => id⟩) (fun _ => ?_) nofun
      fun closed => absurd (.inr rfl) closed
    rw [coming_of_starting phase]
    exact congrArg (tasks.inbox ++ ·) (coming_of_reading rfl)
  | ended reading unread notes =>
    refine intake.keep notes.toSame rfl (fun opened => ⟨opened, fun _ => notes.mirrors⟩)
      (fun _ => ?_) (fun _ => rfl) intake.whole
    rw [coming_of_reading reading, unread]
    exact congrArg (tasks.inbox ++ ·) (coming_of_ended (intake.started_of_reading reading) rfl)
  | @passedOn service line rest update reading phase unread here notes =>
    refine intake.keep notes.toSame rfl (fun opened => ⟨opened, fun _ => notes.mirrors⟩)
      (fun _ => ?_) intake.waiting intake.whole
    rw [coming_of_reading reading, unread, legible_cons (by simp [here]), accepted_cons_update here,
      List.append_assoc]
    exact congrArg (fun later => tasks.inbox ++ update :: later) (coming_of_reading reading)
  | refused reading phase unread notes =>
    -- a reader is at work, so the pump is not to come but gone, and the update is lost
    have closed : ¬tasks.Open := by
      rintro (starting | pumping)
      · exact intake.started_of_reading reading starting
      · exact phase pumping
    exact intake.keep notes.toSame rfl (fun opened => absurd opened closed)
      (fun opened => absurd opened closed) (fun _ => rfl) intake.whole
  | skipped reading unread here notes =>
    refine intake.keep notes.toSame rfl (fun opened => ⟨opened, fun _ => notes.mirrors⟩)
      (fun _ => ?_) intake.waiting intake.whole
    rw [coming_of_reading reading, unread, legible_cons here.ne_noText, accepted_cons_skipped here]
    exact congrArg (tasks.inbox ++ ·) (coming_of_reading reading)
  | failed reading unread here notes =>
    refine intake.keep notes.toSame rfl (fun opened => ⟨opened, fun _ => notes.mirrors⟩)
      (fun _ => ?_) (fun _ => rfl) intake.whole
    rw [coming_of_reading reading, unread, legible_cons_noText here]
    exact congrArg (tasks.inbox ++ ·) (coming_of_ended (intake.started_of_reading reading) rfl)
  | published phase sent inbox publishes => exact intake.publish phase inbox publishes
  | handedOn unsent =>
    exact intake.keep ⟨rfl, rfl, rfl⟩ rfl (fun opened => ⟨opened, fun _ => id⟩) (fun _ => rfl)
      intake.waiting intake.whole
  | wrote outbox =>
    exact intake.keep ⟨rfl, rfl, rfl⟩ rfl (fun opened => ⟨opened, fun _ => id⟩) (fun _ => rfl)
      intake.waiting intake.whole
  | told untold phase =>
    exact intake.keep ⟨rfl, rfl, rfl⟩ rfl (fun opened => ⟨opened, fun _ => id⟩) (fun _ => rfl)
      intake.waiting fun closed => absurd phase closed
  | left phase sent inbox reading =>
    refine intake.keep ⟨rfl, rfl, rfl⟩ rfl nofun nofun nofun fun _ _ => ?_
    have pumping : tasks.phase ≠ .starting := fun starting => nomatch phase.symm.trans starting
    rw [intake.order (.inr phase), inbox, coming_of_ended pumping reading]
    exact ((List.append_nil _).trans (List.append_nil _)).symm
  | quit phase sent told notes =>
    refine intake.keep notes.toSame rfl nofun nofun nofun fun _ untold => ?_
    exact nomatch told.symm.trans untold
  | aborted phase reading =>
    refine intake.keep ⟨rfl, rfl, rfl⟩ rfl (fun opened => ⟨opened, fun _ => id⟩)
      (fun opened => ?_) (fun _ => rfl) intake.whole
    exact absurd opened (closed_of_phase phase (by decide))
  | stopped phase reading same =>
    exact intake.keep same rfl nofun nofun nofun
      fun _ => intake.whole (closed_of_phase phase (by decide))
  | finished phase outbox same =>
    exact intake.keep same rfl nofun nofun nofun
      fun _ => intake.whole (closed_of_phase phase (by decide))

end Intake

end Tasks

end Host

end Switchboard
