import Switchboard.Proofs.Engine.Reach
import Switchboard.Proofs.Engine.Repeats
import Switchboard.Proofs.Engine.Restart
import Switchboard.Proofs.Network.Repeats

/-!
# Publishing the current value again

Whoever publishes the value that a path has already stirs nobody at work. No
rule is called, and so nothing is delivered, no tally moves, and what is shown
to the operator stays. This holds whatever has been published before, and
however often the rules have been started and stopped, unless a guest takes
the occasion to publish something else.
-/
namespace Switchboard

open Event Network

variable {ς : Type}

/-- A rule shows a message whenever it fires, and that is not what a guest does. -/
theorem Drive.not_guest_fire (drive : Drive) (sink : Sink ς) (action : Action) (remembered : ς) :
    ¬PlantScript.Guest (drive.fire sink action) := by
  intro guest
  cases guest.plain with
  | record _ rest =>
    cases rest with
    | change same _ => exact nomatch congrArg (·.board.message) (same (Plant.start remembered))

/-- A rule that ignores what comes again, or a guest who does not publish on account of it. -/
def Subscription.Placid (sink : Sink ς) (s : Subscription Line Json Entry (Plant ς)) : Prop :=
  s.Fires sink ∧ s.stream.IgnoresRepeats ∨ (∀ a, PlantScript.Guest (s.listener a)) ∧ s.Unmoved

namespace Subscription.Placid

variable {sink : Sink ς} {s : Subscription Line Json Entry (Plant ς)}

theorem unmoved (placid : s.Placid sink) : s.Unmoved := by
  rcases placid with ⟨_, ignores⟩ | ⟨_, unmoved⟩
  · exact .inl ignores
  · exact unmoved

theorem tame (placid : s.Placid sink) (a : s.α) : (s.listener a).Tame fun _ => True := by
  rcases placid with ⟨⟨_, _, drive, rfl⟩, _⟩ | ⟨guest, _⟩
  · exact (drive.brisk_fire sink a).tame
  · exact (guest a).plain.tame

theorem ignoresRepeats {drive : Drive} {stream : BusStream Action} {state : stream.State}
    (placid : Placid sink ⟨stream, state, drive.fire sink⟩) (remembered : ς) :
    stream.IgnoresRepeats := by
  rcases placid with ⟨_, ignores⟩ | ⟨guest, _⟩
  · exact ignores
  · exact absurd (guest .turnOn) (drive.not_guest_fire sink .turnOn remembered)

/-- It does not matter what a subscription remembers. -/
theorem with_state (placid : s.Placid sink) (state : s.stream.State) :
    Placid sink ⟨s.stream, state, s.listener⟩ := by
  rcases placid with ⟨⟨_, _, drive, rfl⟩, ignores⟩ | guest
  · exact .inl ⟨⟨_, _, drive, rfl⟩, ignores⟩
  · exact .inr guest

end Subscription.Placid

namespace Engine

variable {sink : Sink ς} {engine after : Engine ς}

/-- An engine whose rules and guests are such. -/
structure Placid (sink : Sink ς) (engine : Engine ς) : Prop where
  same_sink : engine.sink = sink
  subscriptions : ∀ s ∈ engine.network.subscriptions, s.Placid sink

namespace Placid

theorem aside (placid : engine.Placid sink) (aside : engine.Aside after) : after.Placid sink :=
  ⟨aside.sink.trans placid.same_sink, by rw [aside.alike.subscriptions]; exact placid.subscriptions⟩

/-- Runs in which nobody comes to stay. -/
theorem run {network last : PlantNetwork ς} {stack : List (Frame Line Json Entry (Plant ς))}
    {es : List (Event Line Json)} (placid : ∀ s ∈ network.subscriptions, s.Placid sink)
    (tame : ∀ frame ∈ stack, frame.Tame fun _ => True) (run : Run network stack es last []) :
    last.subscriptions.length = network.subscriptions.length ∧
      ∀ s ∈ last.subscriptions, s.Placid sink := by
  have all_tame : Tame (fun _ => True) network stack :=
    ⟨fun s member => (placid s member).tame, tame, trivial⟩
  have length := (all_tame.run run).2
  refine ⟨length, fun s member => ?_⟩
  obtain ⟨n, there⟩ := List.mem_iff_getElem?.mp member
  obtain ⟨old, state, before, rfl⟩ := run.keeps.back length there
  exact (placid old (List.mem_of_getElem? before)).with_state state

/-- Scripts that only publish, at most, bring nobody along. -/
theorem perform (placid : engine.Placid sink) {script : PlantScript ς}
    (tame : script.Tame fun _ => True) {budget : Nat}
    (ends : engine.perform budget script = some after) :
    after.network.subscriptions.length = engine.network.subscriptions.length ∧
      after.Placid sink := by
  obtain ⟨network, settles, rfl⟩ := Option.map_eq_some_iff.mp ends
  have begins : Frame.Tame (fun _ => True) (.script script) := tame
  obtain ⟨length, subscriptions⟩ :=
    run placid.subscriptions (List.forall_mem_singleton.mpr begins) (run_of_settle settles)
  exact ⟨length, placid.same_sink, subscriptions⟩

/-- Somebody comes to stay. -/
theorem subscribe (placid : engine.Placid sink) {α : Type} {stream : BusStream α}
    {listener : α → PlantScript ς}
    (new : Subscription.Placid sink ⟨stream, stream.initial, listener⟩) {budget : Nat}
    {handle : Handle Line}
    (ends : engine.subscribe budget stream listener = some (after, handle)) :
    after.Placid sink := by
  obtain ⟨network, rfl, whole⟩ := run_of_subscribe ends
  obtain ⟨_, _, opened⟩ := opening_of_run whole
  have enlisted : ∀ s ∈ (engine.network.enlisted stream listener).subscriptions, s.Placid sink :=
    List.forall_mem_append.mpr ⟨placid.subscriptions, List.forall_mem_singleton.mpr new⟩
  have begins : Frame.Tame (fun _ => True) (.opening engine.network.subscriptions.length 0
      stream.leaves .done : Frame Line Json Entry (Plant ς)) := Script.Tame.done
  exact ⟨placid.same_sink, (run enlisted (List.forall_mem_singleton.mpr begins) opened).2⟩

theorem activate (placid : engine.Placid sink) {compiled : CompiledRule}
    (ignores : compiled.actions.IgnoresRepeats) {budget : Nat} {active : ActiveRule}
    (ends : engine.activate budget compiled = some (after, active)) : after.Placid sink := by
  obtain ⟨handle, _, subscribes⟩ := activate_eq_some.mp ends
  have logged := (Still.takeLog engine compiled.key).toAside
  have unnoticed : engine.Aside (engine.prepared compiled) :=
    logged.trans ⟨rfl, ⟨rfl, rfl⟩, rfl, rfl⟩
  rw [placid.same_sink] at subscribes
  exact (placid.aside unnoticed).subscribe (.inl ⟨⟨_, _, _, rfl⟩, ignores⟩) subscribes

theorem enable (placid : engine.Placid sink) {budget index : Nat} {config : EngineConfig}
    {rule : RuleConfig} {outcome : Except DroppedRule ActiveRule}
    (ends : engine.enable budget config index rule = some (after, outcome)) :
    after.Placid sink := by
  have noted := placid.aside (Still.noted engine rule).toAside
  rcases enable_eq_some.mp ends with ⟨reason, _, rfl, _⟩ | ⟨compiled, active, compiles, _, activates⟩
  · exact noted.aside (Still.noteDropped _ _ _).toAside
  · exact noted.activate (EngineConfig.ignoresRepeats_compile compiles) activates

theorem enableAll (placid : engine.Placid sink) {budget : Nat} {config : EngineConfig}
    {candidates : List (RuleConfig × Nat)} {outcomes : List (Except DroppedRule ActiveRule)}
    (ends : Engine.enableAll budget config candidates engine = some (after, outcomes)) :
    after.Placid sink := by
  induction candidates generalizing engine outcomes with
  | nil =>
    obtain ⟨rfl, _⟩ := Prod.mk.inj (Option.some.inj ends)
    exact placid
  | cons candidate rest ih =>
    obtain ⟨rule, index⟩ := candidate
    obtain ⟨middle, _, _, _, enabled, later⟩ := enableAll_cons.mp ends
    exact ih (placid.enable enabled) later

theorem start (placid : engine.Placid sink) {budget : Nat} {config : EngineConfig}
    {result : Except RuleError StartReport}
    (ends : engine.start budget config = some (after, result)) : after.Placid sink := by
  cases running : engine.running with
  | true =>
    rw [start_running running] at ends
    obtain ⟨rfl, _⟩ := Prod.mk.inj (Option.some.inj ends)
    exact placid
  | false =>
    rcases (start_eq_some running).mp ends with ⟨_, rfl, _⟩ |
      ⟨_, middle, outcomes, rfl, _, enables⟩
    · exact placid.aside (Still.failed engine config).toAside
    · have operating := placid.aside (Still.operating engine config).toAside
      exact (operating.enableAll enables).aside (Still.atWork middle config outcomes).toAside

theorem stop (placid : engine.Placid sink) : engine.stop.Placid sink :=
  stop_keeps (Placid sink) (fun engine registrations placid =>
      ⟨placid.same_sink, by
        rw [show (engine.detach registrations).network.subscriptions = engine.network.subscriptions
          from detach_subscriptions ..]
        exact placid.subscriptions⟩)
    (fun unnoticed placid => placid.aside unnoticed) placid

/-- Visits after which those who have come to stay do not publish on account of repetitions. -/
theorem visit (placid : engine.Placid sink) {changes : ς → ς → Prop} {es : List (Event Line Json)}
    (visit : Visit changes engine es after)
    (unmoved : ∀ s ∈ after.network.subscriptions.drop engine.network.subscriptions.length,
      s.Unmoved) : after.Placid sink := by
  cases visit with
  | performed guest ends => exact (placid.perform guest.plain.tame ends).2
  | @subscribed α budget stream listener _ handle _ guest ends =>
    refine placid.subscribe (.inr ⟨guest, ?_⟩) ends
    obtain ⟨network, rfl, whole⟩ := run_of_subscribe ends
    obtain ⟨_, _, opened⟩ := opening_of_run whole
    obtain ⟨state, there⟩ := opened.keeps engine.network.subscriptions.length
      ⟨stream, stream.initial, listener⟩ List.getElem?_concat_length
    refine unmoved ⟨stream, state, listener⟩ (List.mem_of_getElem? (i := 0) ?_)
    rw [List.getElem?_drop]
    exact there
  | detached registrations =>
    refine ⟨placid.same_sink, ?_⟩
    rw [show (engine.detach registrations).network.subscriptions = engine.network.subscriptions
      from detach_subscriptions ..]
    exact placid.subscriptions
  | adjusted => exact ⟨placid.same_sink, placid.subscriptions⟩

end Placid

/--
What an engine can come to as long as nobody who comes to stay publishes anything when he is told
what he has been told last.
-/
inductive Undisturbed (sink : Sink ς) : Engine ς → Prop where
  | new (remembered : ς) (logs : Option RuleLog.Site) :
      Undisturbed sink (.new sink remembered logs)
  | visit {engine after : Engine ς} {es : List (Event Line Json)} (before : Undisturbed sink engine)
      (visit : Visit (fun _ _ => True) engine es after)
      (unmoved : ∀ s ∈ after.network.subscriptions.drop engine.network.subscriptions.length,
        s.Unmoved) : Undisturbed sink after
  | offer {engine after : Engine ς} {budget : Nat} {delivery : Delivery} {answer : Answer}
      (before : Undisturbed sink engine)
      (ends : engine.offer budget delivery = some (after, answer)) : Undisturbed sink after
  | start {engine after : Engine ς} {budget : Nat} {config : EngineConfig}
      {result : Except RuleError StartReport} (before : Undisturbed sink engine)
      (ends : engine.start budget config = some (after, result)) : Undisturbed sink after
  | stop {engine : Engine ς} (before : Undisturbed sink engine) : Undisturbed sink engine.stop
  | renewed {engine : Engine ς} (before : Undisturbed sink engine) (idle : engine.running = false)
      (logs : Option RuleLog.Site) : Undisturbed sink (engine.renewed logs)

namespace Undisturbed

theorem reachable (undisturbed : engine.Undisturbed sink) : Reachable sink engine := by
  induction undisturbed with
  | new remembered logs => exact .new remembered logs
  | visit _ visit _ ih => exact ih.visit visit
  | offer _ ends ih => exact ih.offer ends
  | start _ ends ih => exact ih.start ends
  | stop _ ih => exact ih.stop
  | renewed _ idle logs ih => exact ih.renewed idle logs

theorem placid (undisturbed : engine.Undisturbed sink) : engine.Placid sink := by
  induction undisturbed with
  | new => exact ⟨rfl, nofun⟩
  | visit _ visit unmoved ih => exact ih.visit visit unmoved
  | offer _ ends ih =>
    obtain ⟨_, performs, same⟩ := Option.map_eq_some_iff.mp ends
    obtain ⟨rfl, _⟩ := Prod.mk.inj same
    exact (ih.perform (PlantScript.brisk_offer _ _ fun _ => .done).tame performs).2
  | start _ ends ih => exact ih.start ends
  | stop _ ih => exact ih.stop
  | renewed _ _ _ ih => exact ⟨ih.same_sink, ih.subscriptions⟩

theorem starts (undisturbed : engine.Undisturbed sink) {config : EngineConfig}
    (starts : engine.Starts config after) : after.Undisturbed sink := by
  obtain ⟨least, result, ends⟩ := starts
  exact undisturbed.start (ends least le_rfl)

/-- Whoever only publishes brings nobody along. -/
theorem published (undisturbed : engine.Undisturbed sink) {budget audience : Nat} {path : String}
    {value : Json} (ends : engine.publish budget path value = some (after, audience)) :
    after.Undisturbed sink := by
  obtain ⟨_, performs, same⟩ := Option.map_eq_some_iff.mp ends
  obtain ⟨rfl, _⟩ := Prod.mk.inj same
  have length := (undisturbed.placid.perform (guest_publication path value).plain.tame performs).1
  refine undisturbed.visit (.published ends) ?_
  rw [← length, List.drop_length]
  exact List.forall_mem_nil _

theorem publishes (undisturbed : engine.Undisturbed sink) {values : List (String × Json)}
    (publishes : engine.Publishes values after) : after.Undisturbed sink := by
  induction values generalizing engine with
  | nil =>
    obtain rfl := publishes.unique (.nil engine)
    exact undisturbed
  | cons first rest ih =>
    obtain ⟨path, value⟩ := first
    obtain ⟨budget, middle, audience, ends, later⟩ := publishes_cons_iff.mp publishes
    exact ih (undisturbed.published ends) later

/-- To publish the current value again is a run that comes to its end and calls no rule. -/
theorem run_republication (undisturbed : engine.Undisturbed sink) {path : String} {value : Json}
    (current : engine.latest? path = some value) :
    ∃ es last, Run engine.network [.script (publication path value)] es last [] ∧
      (∀ line, last.latest line = engine.network.latest line) ∧
      ∀ n s, engine.network.subscriptions[n]? = some s → s.stream.IgnoresRepeats →
        calls n es = [] := by
  obtain ⟨base, crew, past, manned⟩ := undisturbed.reachable.manned
  have line : engine.network.latest ⟨engine.plant.bus.generation, path⟩ = some value := by
    unfold latest? at current
    split at current
    · exact current
    · cases current
  obtain ⟨ready, begins, alike, _⟩ := publication_begins
    (show InGeneration engine.plant.bus.generation engine.network.memory from rfl) path value
  have same := latest_congr alike.subjects
  obtain ⟨es, last, run, latest, uncalled⟩ :=
    (manned.staffed.sound.congr alike.subjects alike.subscriptions).republish
      (by rw [same]; exact line) (fun _ => .change (fun _ _ => trivial) .done)
      (fun n leaf _ s there => by
        rw [alike.subscriptions] at there
        exact (undisturbed.placid.subscriptions s (List.mem_of_getElem? there)).unmoved)
  refine ⟨es, last, begins.trans run, fun line => by rw [latest, same], ?_⟩
  rw [← alike.subscriptions]
  exact uncalled

end Undisturbed

/--
Whoever publishes the value that a path has already changes nothing. The publication comes to its
end, no rule is called on account of it, nothing is delivered, and tallies, what is shown to the
operator, what the sink remembers and the logs of rules stay as they are.
-/
theorem republishing_changes_nothing (undisturbed : engine.Undisturbed sink) {path : String}
    {value : Json} (current : engine.latest? path = some value) :
    ∃ least after audience, (∀ budget, least ≤ budget →
        engine.publish budget path value = some (after, audience) ∧
        ∀ n s, engine.network.subscriptions[n]? = some s → s.Fires sink →
          calls n (engine.publishEvents budget path value) = []) ∧
      after.deliveries = engine.deliveries ∧ after.status = engine.status ∧
      after.active = engine.active ∧ after.plant.holdings = engine.plant.holdings ∧
      after.ruleLines = engine.ruleLines ∧
      ∀ line, after.network.latest line = engine.network.latest line := by
  obtain ⟨base, crew, past, manned⟩ := undisturbed.reachable.manned
  obtain ⟨es, last, run, latest, uncalled⟩ := undisturbed.run_republication current
  have rules (n : Nat) (s : Subscription Line Json Entry (Plant ς))
      (there : engine.network.subscriptions[n]? = some s) (fires : s.Fires sink) :
      calls n es = [] := by
    have placid := undisturbed.placid.subscriptions s (List.mem_of_getElem? there)
    obtain ⟨stream, state, drive, rfl⟩ := fires
    exact uncalled n _ there (placid.ignoresRepeats engine.plant.sink)
  have unmoved : (engine.withNetwork last).sight = engine.sight := by
    have begun := manned.staffed.admits (guest_publication path value)
    have seen := begun.unmoved_of_uncalled run fun i small => by
      obtain ⟨⟨drive, rule⟩, here⟩ : ∃ hand, crew[i]? = some hand :=
        ⟨_, List.getElem?_eq_getElem small⟩
      obtain ⟨_, stream, state, there, _⟩ := manned.staffed.members i drive rule here
      exact rules _ _ there ⟨stream, state, drive, rfl⟩
    exact seen.trans (foreseen_plain (guest_publication path value).plain)
  obtain ⟨least, ends⟩ := publish_of_run run
  refine ⟨least, engine.withNetwork last, last.memory.audience, fun budget enough => ?_, ?_,
    status_congr unmoved rfl rfl, rfl, congrArg Prod.fst unmoved, ?_, latest⟩
  · obtain ⟨published, watched⟩ := ends budget enough
    rw [watched]
    exact ⟨published, rules⟩
  · rw [← sight_deliveries, unmoved, sight_deliveries]
  · rw [← sight_lines, unmoved, sight_lines]

/-- A rule that has switched its output on hears nothing when its input is published again. -/
theorem loop_stays_on : Reopened.switched.Undisturbed Outlet.sink ∧
    Reopened.switched.latest? "p" = some (.int 1) ∧ Reopened.switched.deliveries.length = 1 ∧
    ∃ budget after audience, Reopened.switched.publish budget "p" (.int 1) = some (after, audience) ∧
      after.deliveries = Reopened.switched.deliveries ∧
      after.status = Reopened.switched.status := by
  have undisturbed : Reopened.switched.Undisturbed Outlet.sink :=
    ((Undisturbed.new _ _).starts Reopened.starts_started).publishes Reopened.publishes_switched
  have current : Reopened.switched.latest? "p" = some (.int 1) := rfl
  obtain ⟨least, after, audience, ends, deliveries, status, _⟩ :=
    republishing_changes_nothing undisturbed current
  exact ⟨undisturbed, current, rfl, least, after, audience, (ends least le_rfl).1, deliveries,
    status⟩

end Engine

end Switchboard
