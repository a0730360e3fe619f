import Switchboard.Proofs.Engine.Reach
import Switchboard.Proofs.Engine.Restart

/-!
# Stopping, and starting afresh

While rules are at work nobody leaves a subject, and nobody joins one but the
leaves of the rules that are being started. A stop takes just these away. So
each subject has the listeners that it had before the start, in the same
order, and a rule that is attached nowhere is never heard of again.

A stopped engine and a new one over the same bus and sink differ in what they
show and in the logs that they have in use, and no rule looks at either. So
from a start on both do the same.
-/
namespace Switchboard

open Event Network

variable {ς : Type}

namespace Network

variable {κ ν ρ σ : Type} [DecidableEq κ] {keeps : σ → Prop} {network last : Network κ ν ρ σ}
variable {stack final : List (Frame κ ν ρ σ)} {es : List (Event κ ν)}

/-- Where nobody comes or goes and nobody is just being opened, every listener stays. -/
theorem Tame.listeners_stay (tame : Tame keeps network stack) (settled : openings stack = [])
    (run : Run network stack es last final) (key : κ) :
    (last.subject key).listeners = (network.subject key).listeners := by
  have none_joins : ∀ n ∈ openings stack, (fun _ => true) n = false := by
    rw [settled]
    exact List.forall_mem_nil _
  simpa using tame.listeners_run none_joins run key

end Network

namespace Staffed

variable {sink : Sink ς} {base : Nat} {right : Reckoning ς} {crew : Crew}
variable {past es : List (Event Line Json)} {network : PlantNetwork ς}

/-- Rules and guests do the same at plants that are alike. -/
theorem agrees (staffed : Staffed sink right base crew past es network [])
    {s : Subscription Line Json Entry (Plant ς)} (member : s ∈ network.subscriptions) :
    s.Similar (Plant.Alike Eq) Entry.delivery? s := by
  obtain ⟨n, there⟩ := List.mem_iff_getElem?.mp member
  rcases staffed.whose there with ⟨i, drive, rule, _, _, _, stream, state, rfl⟩ |
    ⟨_, guest | ⟨_, stream, state, drive, rfl⟩⟩
  · exact .mk state fun action => sink.agrees_self drive drive.log action
  · exact .mk s.state fun a => (guest a).blind
  · exact .mk state fun action => sink.agrees_self drive drive.log action

/-- Every listener of a subject belongs to a subscription. -/
theorem small_of_listening (staffed : Staffed sink right base crew past es network [])
    {key : Line} {n leaf : Nat} (listed : (n, leaf) ∈ (network.subject key).listeners) :
    n < network.subscriptions.length :=
  small_of_leafAt (staffed.sound.accounted.place key n leaf
    ((staffed.sound.accounted.listening key n leaf).mp listed))

end Staffed

namespace Engine

variable {engine after : Engine ς} {sink : Sink ς}

namespace Manned

variable {base : Nat} {crew : Crew} {past : List (Event Line Json)}

/-- What is taken back by a stop belongs to the rules at work. -/
theorem base_le_of_registered (manned : engine.Manned sink base crew past)
    {registration : Registration Line} (listed : registration ∈ engine.registrations) :
    base ≤ registration.subscription := by
  obtain ⟨rule, active, released⟩ := List.mem_flatMap.mp listed
  rw [manned.active] at active
  obtain ⟨⟨drive, _⟩, member, rfl⟩ := List.mem_map.mp active
  obtain ⟨i, here⟩ := List.mem_iff_getElem?.mp member
  obtain ⟨_, stream, _, _, handle⟩ := manned.staffed.members i drive _ here
  rw [handle] at released
  have kept : registration ∈ (stream.handle (base + i)).registrations := released
  rw [(mem_handle.mp kept).1]
  exact Nat.le_add_right base i

/-- A stop takes away the listeners of the rules at work, and no others. -/
theorem listeners_stop (manned : engine.Manned sink base crew past)
    (running : engine.running = true)
    (full : base + crew.length = engine.network.subscriptions.length) (line : Line) :
    (engine.stop.network.subject line).listeners =
      (engine.network.subject line).listeners.filter fun listener => decide (listener.1 < base) := by
  have released : (engine.stop.network.subject line).listeners =
      ((engine.network.detach engine.registrations).subject line).listeners := by
    rw [stop_eq running]
    rfl
  rw [released, subject_detach]
  refine List.filter_congr fun listener listed => decide_eq_decide.mpr ⟨fun kept => ?_, ?_⟩
  · by_contra large
    obtain ⟨i, place⟩ := Nat.exists_eq_add_of_le (Nat.le_of_not_lt large)
    have small : listener.1 < engine.network.subscriptions.length :=
      manned.staffed.small_of_listening listed
    refine manned.unlisted (i := i) (by omega) line listener.2 ?_
    rw [subject_detach, ← place]
    exact List.mem_filter.mpr ⟨listed, decide_eq_true kept⟩
  · intro small released
    exact Nat.not_le_of_lt small (manned.base_le_of_registered released)

/-- Publications leave the rules that are listed at work, and every listener where it is. -/
theorem publishes (manned : engine.Manned sink base crew past) {values : List (String × Json)}
    (publishes : engine.Publishes values after) :
    (∃ past', after.Manned sink base crew past') ∧ after.running = engine.running ∧
      after.network.subscriptions.length = engine.network.subscriptions.length ∧
      ∀ line, (after.network.subject line).listeners = (engine.network.subject line).listeners := by
  induction values generalizing engine past with
  | nil =>
    obtain rfl := publishes.unique (.nil engine)
    exact ⟨⟨past, manned⟩, rfl, rfl, fun _ => rfl⟩
  | cons first rest ih =>
    obtain ⟨path, value⟩ := first
    obtain ⟨budget, middle, audience, published, later⟩ := publishes_cons_iff.mp publishes
    obtain ⟨crewed, active, running⟩ :=
      manned.toCrewed.visit (numbered sink base) (.published published)
    have manned' : middle.Manned sink base crew _ := ⟨crewed.reopen crewed.staffed.holds,
      active.trans manned.active, fun idle => manned.idle (running.symm.trans idle)⟩
    obtain ⟨there, running', length', stay'⟩ := ih manned' later
    obtain ⟨network, rfl, run⟩ := run_of_publish published
    have tame := (manned.staffed.admits (guest_publication path value)).orderly.tame
    exact ⟨there, running'.trans running, length'.trans (tame.run run).2,
      fun line => (stay' line).trans (tame.listeners_stay rfl run line)⟩

/-- Where no rules are at work, nothing that is published changes what belongs to rules. -/
theorem unmoved (manned : engine.Manned sink base [] past) {values : List (String × Json)}
    (publishes : engine.Publishes values after) : after.sight = engine.sight := by
  induction values generalizing engine past with
  | nil =>
    obtain rfl := publishes.unique (.nil engine)
    rfl
  | cons first rest ih =>
    obtain ⟨path, value⟩ := first
    obtain ⟨budget, middle, audience, published, later⟩ := publishes_cons_iff.mp publishes
    obtain ⟨⟨past', manned'⟩, _⟩ :=
      manned.publishes (publishes_cons_iff.mpr ⟨budget, middle, audience, published, .nil middle⟩)
    obtain ⟨network, rfl, run⟩ := run_of_publish published
    have guest : (publication path value : PlantScript ς).Guest := guest_publication path value
    refine (ih manned' later).trans (((manned.staffed.admits guest).unmoved run).trans ?_)
    exact foreseen_plain guest.plain

/-- Where no rules are at work, nothing that is published is delivered, logged or shown. -/
theorem nothing_later (manned : engine.Manned sink base [] past) {values : List (String × Json)}
    (publishes : engine.Publishes values after) : after.deliveries = engine.deliveries ∧
      after.ruleLines = engine.ruleLines ∧ after.plant.sink = engine.plant.sink ∧
      after.status = engine.status := by
  have unmoved := manned.unmoved publishes
  obtain ⟨⟨_, manned'⟩, running, _⟩ := manned.publishes publishes
  refine ⟨?_, ?_, congrArg (·.1.sink) unmoved,
    status_congr unmoved running (manned'.active.trans manned.active.symm)⟩
  · rw [← sight_deliveries, unmoved, sight_deliveries]
  · rw [← sight_lines, unmoved, sight_lines]

/-- A stopped engine and a new one stand alike. -/
theorem mirrors (manned : engine.Manned sink base crew past) (idle : engine.running = false)
    (logs : Option RuleLog.Site) : engine.Mirrors Eq (engine.renewed logs) := by
  obtain ⟨_, none_active, none_tallied⟩ := manned.at_rest idle
  refine ⟨engine.sink.agrees_self, ⟨rfl, ?_, rfl, ?_, rfl⟩, none_active, idle⟩
  · exact List.forall₂_same.mpr fun s member => manned.staffed.agrees member
  · show Plant.core engine.plant = _
    rw [Plant.core, Plant.bare, none_tallied]
    rfl

end Manned

theorem running_stop (engine : Engine ς) : engine.stop.running = false := by
  cases running : engine.running with
  | true => rw [stop_eq running]; rfl
  | false => rw [stop_idle running]; exact running

theorem site_stop (engine : Engine ς) : engine.stop.site = engine.site := by
  have removed (rules : List ActiveRule) (shelf : RuleLog.Shelf) :
      (rules.foldl (fun shelf (rule : ActiveRule) => shelf.remove rule.key) shelf).site =
        shelf.site := by
    induction rules generalizing shelf with
    | nil => rfl
    | cons rule rest ih => exact ih (shelf.remove rule.key)
  unfold Engine.stop
  split
  · show Option.map _ (Option.map _ engine.logs) = _
    rw [Option.map_map]
    exact congrFun (congrArg Option.map (funext (removed engine.active))) engine.logs
  · rfl

/-- To be replaced is to be stopped, and to have a new engine in one's place. -/
theorem Reachable.replace_eq (reachable : Reachable sink engine) :
    engine.replace = engine.stop.renewed engine.site := by
  obtain ⟨base, crew, past, manned⟩ := reachable.stop.manned
  have idle := running_stop engine
  obtain ⟨_, none_active, none_tallied⟩ := manned.at_rest idle
  rw [← site_stop, replace, Engine.renewed]
  generalize engine.stop = stopped at idle none_active none_tallied
  obtain ⟨sink, logs, network, active, running⟩ := stopped
  obtain rfl : active = [] := none_active
  obtain rfl : running = false := idle
  have none_tallied : network.memory.tallies = [] := none_tallied
  simp only [alter, site, Engine.new, Plant.start, Option.map_map, Engine.plant, none_tallied]
  rfl

/-- Whatever another engine does from a start on, this one does as well. -/
def StartsLike (engine other : Engine ς) : Prop :=
  ∀ (config : EngineConfig) (budget : Nat) (started : Engine ς)
    (result : Except RuleError StartReport), other.start budget config = some (started, result) →
    ∃ least started', (∀ more, least ≤ more → engine.start more config = some (started', result)) ∧
      ∀ (values : List (String × Json)) (after : Engine ς), started.Publishes values after →
        ∃ after', started'.Publishes values after' ∧ after'.deliveries = after.deliveries ∧
          after'.status.rules = after.status.rules

theorem Mirrors.status_rules {ς' : Type} {paired : ς → ς' → Prop} {engine' : Engine ς'}
    (mirrors : engine.Mirrors paired engine') : engine.status.rules = engine'.status.rules := by
  rw [status, status, mirrors.active, mirrors.alike.tallies]

/-- Engines that stand alike do the same from a start on. -/
theorem Mirrors.startsLike {paired : ς → ς → Prop} {other : Engine ς}
    (mirrors : other.Mirrors paired engine) (idle : other.running = false) :
    engine.StartsLike other := by
  intro config budget started result ends
  obtain ⟨least, started', mirrors', ends'⟩ := mirrors.start idle ends
  refine ⟨least, started', ends', fun values after publishes => ?_⟩
  obtain ⟨after', mirrors'', publishes'⟩ := mirrors'.publishes publishes
  exact ⟨after', publishes', mirrors''.deliveries.symm, mirrors''.status_rules.symm⟩

/--
However an engine has got where it is: when it has been started, some values have been published
and it has been stopped, every subject has the listeners that it would have if the engine had never
been started, in the same order. Nothing that is published later is offered to the sink or leads to a
delivery, to a line in the log of a rule or to another status, and another stop changes nothing.
And from a further start on the engine does what a new one over the same bus and sink does, and the
other way round.
-/
theorem stop_releases {ready started : Engine ς} (reachable : Reachable sink ready) {budget : Nat}
    {config : EngineConfig} {report : StartReport} {values : List (String × Json)}
    (starts : ready.start budget config = some (started, .ok report))
    (publishes : started.Publishes values engine) :
    (∀ line, (engine.stop.network.subject line).listeners = (ready.network.subject line).listeners ∧
      ∀ alone, ready.Publishes values alone →
        (engine.stop.network.subject line).listeners = (alone.network.subject line).listeners) ∧
    (∀ later after, engine.stop.Publishes later after →
      after.deliveries = engine.stop.deliveries ∧ after.ruleLines = engine.stop.ruleLines ∧
        after.plant.sink = engine.stop.plant.sink ∧ after.status = engine.stop.status) ∧
    engine.stop.stop = engine.stop ∧
    ∀ logs, engine.stop.StartsLike (engine.stop.renewed logs) ∧
      (engine.stop.renewed logs).StartsLike engine.stop := by
  obtain ⟨_, _, past, before⟩ := reachable.manned
  obtain ⟨rested, _⟩ := before.at_rest (idle_of_start starts)
  obtain ⟨crew, _, crewed, works, active, full, stay⟩ :=
    reachable.opens (numbered sink _) (congrArg List.length) starts
  have manned : started.Manned sink ready.network.subscriptions.length crew _ :=
    ⟨crewed.reopen crewed.staffed.holds, active, fun idle => nomatch works.symm.trans idle⟩
  obtain ⟨⟨_, manned⟩, running, length, same⟩ := manned.publishes publishes
  have works : engine.running = true := running.trans works
  obtain ⟨_, stopped⟩ := manned.stop
  have idle := running_stop engine
  have listeners (line : Line) : (engine.stop.network.subject line).listeners =
      (ready.network.subject line).listeners := by
    rw [manned.listeners_stop works (full.trans length.symm), same, stay]
    exact List.filter_eq_self.mpr fun listener listed =>
      decide_eq_true (rested.staffed.small_of_listening listed)
  refine ⟨fun line => ⟨listeners line, fun alone quiet => ?_⟩, fun later after published => ?_,
    stop_idle idle, fun logs => ?_⟩
  · obtain ⟨_, _, _, same_alone⟩ := rested.publishes quiet
    rw [listeners, same_alone]
  · exact stopped.nothing_later published
  · have mirrors := stopped.mirrors idle logs
    exact ⟨mirrors.symm.startsLike rfl, mirrors.startsLike idle⟩

namespace Relieved

/-- Somebody watches the output before the rule is started. -/
def watched : Engine Outlet :=
  ((Reopened.fresh.watch 100 "lamp" "o").map Prod.fst).getD Reopened.fresh

def started : Engine Outlet := ((watched.start 100 Echo.config).map Prod.fst).getD watched

/-- The rule has switched the output on, and has been told so. -/
def switched : Engine Outlet := (started.publishAll 100 [("p", .int 1)]).getD started

theorem reachable_watched : Reachable Outlet.sink watched := by
  have ends : Reopened.fresh.watch 100 "lamp" "o" =
      some (watched, some ⟨[⟨⟨0, "o"⟩, 0, 0⟩], false⟩) := rfl
  exact (Reachable.new _ _).watch ends

theorem starts_started :
    watched.start 100 Echo.config = some (started, .ok ⟨["p => o"], [], []⟩) := rfl

theorem publishes_switched : started.Publishes [("p", .int 1)] switched := by
  have ends : started.publishAll 100 [("p", .int 1)] = some switched := rfl
  exact publishes_of_some ends

end Relieved

/-- The rule goes away from its output, and the one who watches it stays. -/
theorem leaves_the_watcher : Reachable Outlet.sink Relieved.watched ∧
    Relieved.watched.start 100 Echo.config = some (Relieved.started, .ok ⟨["p => o"], [], []⟩) ∧
    Relieved.started.Publishes [("p", .int 1)] Relieved.switched ∧
    (Relieved.switched.network.subject ⟨0, "o"⟩).listeners = [(0, 0), (1, 2)] ∧
    (Relieved.switched.stop.network.subject ⟨0, "o"⟩).listeners = [(0, 0)] ∧
    Relieved.switched.stop.stop = Relieved.switched.stop ∧
    Relieved.switched.stop.StartsLike (Relieved.switched.stop.renewed none) := by
  obtain ⟨listeners, _, again, like⟩ := stop_releases Relieved.reachable_watched
    Relieved.starts_started Relieved.publishes_switched
  have before : (Relieved.watched.network.subject ⟨0, "o"⟩).listeners = [(0, 0)] := rfl
  exact ⟨Relieved.reachable_watched, Relieved.starts_started, Relieved.publishes_switched,
    by decide, (listeners _).1.trans before, again, (like none).1⟩

end Engine

end Switchboard
