import Switchboard.Proofs.Engine.Starting
import Switchboard.Proofs.Network.Origin
import Switchboard.Proofs.Stream.Emission

/-!
# What happens in a session

Publications, the start of the rules, and publications again: all that happens
on the way, whether or not the budget of steps suffices. Rules are tame, so
that the subscriptions of an engine are those of its circuits at any time, in
the order in which these are enabled, and a rule has been called with what the
actions of its circuit make of the values that it has been fed.
-/
namespace Switchboard

open Event Network

namespace Network

variable {κ ν ρ σ : Type} [DecidableEq κ]

/-- What happens within a budget is a run, finished or not. -/
theorem run_of_events (fuel : Nat) (network : Network κ ν ρ σ) (stack : List (Frame κ ν ρ σ)) :
    ∃ next final, Run network stack (network.events fuel stack) next final := by
  induction fuel generalizing network stack with
  | zero => exact ⟨network, stack, .still _ _⟩
  | succ fuel ih =>
    cases stack with
    | nil => exact ⟨network, [], .still _ _⟩
    | cons frame rest =>
      obtain ⟨next, final, run⟩ := ih (network.step (frame :: rest)).1 (network.step (frame :: rest)).2
      exact ⟨next, final, .step rfl run⟩

end Network

/-- What a rule with a certain output may publish when it fires an action. -/
def Term.MayDeliver (generation : Nat) (output : Term) (action : Action) (line : Line)
    (value : Json) : Prop :=
  line = ⟨generation, output.path⟩ ∧ output.output action = .ok (some value)

namespace Drive

variable {ς : Type} {generation : Nat} {allowed : Line → Json → Prop}

theorem confined_publish {path : String} {value : Json} (fits : allowed ⟨generation, path⟩ value)
    {next : Nat → PlantScript ς}
    (confined : ∀ n, (next n).Confined (InGeneration generation) allowed) :
    (PlantScript.publish path value next).Confined (InGeneration generation) allowed := by
  refine .record (.change (fun plant here => ?_) (.consult fun plant here => ?_))
  · exact (Engine.touch_generation plant.bus path).trans here
  · have line : plant.bus.line path = ⟨generation, path⟩ := by
      rw [Bus.line, show plant.bus.generation = generation from here]
    rw [line]
    exact .publish fits confined

theorem confined_noteAnswer (drive : Drive) (answer : Answer) :
    (drive.noteAnswer answer : PlantScript ς).Confined (InGeneration generation) allowed := by
  have quiet : (drive.noteAnswer answer : PlantScript ς).Quiet (Within generation fun _ => True) :=
    drive.quiet_noteAnswer answer
  rw [within_true] at quiet
  exact quiet.confined

theorem confined_echo {delivery : Delivery}
    (fits : allowed ⟨generation, delivery.path⟩ delivery.value) (answer : Answer) {next : PlantScript ς}
    (confined : next.Confined (InGeneration generation) allowed) :
    (PlantScript.echo delivery answer next).Confined (InGeneration generation) allowed := by
  unfold PlantScript.echo
  split
  · exact confined_publish fits fun _ => confined
  · exact confined

theorem confined_deliver (drive : Drive) (sink : Sink ς) {value : Json}
    (fits : allowed ⟨generation, drive.output.path⟩ value) :
    (drive.deliver sink value).Confined (InGeneration generation) allowed := by
  refine .record (.consult fun plant here => .change (fun _ now => now) ?_)
  generalize (sink.offer plant.sink (drive.delivery value)).2 = answer
  cases answer with
  | refused reason => exact drive.confined_noteAnswer _
  | taken response echo =>
    refine .record ?_
    unfold PlantScript.acknowledge
    split
    · exact (drive.confined_noteAnswer _).followedBy (confined_echo fits _ .done)
    · exact confined_echo fits _ (drive.confined_noteAnswer _)

theorem confined_writeLog (drive : Drive) (action : Action) (outcome : String) {next : PlantScript ς}
    (confined : next.Confined (InGeneration generation) allowed) :
    (drive.writeLog action outcome next).Confined (InGeneration generation) allowed := by
  unfold writeLog
  split
  · exact .record confined
  · exact confined

/-- Whatever the sink answers, a rule that fires publishes what its output gives for the action. -/
theorem confined_fire (drive : Drive) (sink : Sink ς) (action : Action) :
    (drive.fire sink action).Confined (InGeneration generation)
      (drive.output.MayDeliver generation action) := by
  refine .record (.change (fun _ here => here) ?_)
  split
  · rename_i value gives
    refine .change (fun _ here => here) (drive.confined_writeLog _ _ ?_)
    cases value with
    | none => exact .record .done
    | some value => exact drive.confined_deliver sink ⟨rfl, gives⟩
  · exact .record (drive.confined_writeLog _ _ (.change (fun _ here => here) .done))

end Drive

/-- The listeners of some circuits have been called with what the circuits make of their feeds. -/
def Followed (circuits : List Circuit) (events : List (Event Line Json)) : Prop :=
  ∀ (n : Nat) (circuit : Circuit), circuits[n]? = some circuit →
    calls n events = (circuit.actions.course (feeds n events)).2.map (Sigma.mk Action)

/-- What a rule has been called with meanwhile are actions. -/
theorem Followed.meanwhile {circuits : List Circuit} {events es : List (Event Line Json)}
    (before : Followed circuits events) (after : Followed circuits (events ++ es)) {n : Nat}
    {circuit : Circuit} (here : circuits[n]? = some circuit) :
    ∃ actions : List Action, calls n es = actions.map (Sigma.mk Action) := by
  obtain ⟨actions, emitted⟩ := circuit.actions.course_grows (feeds n events) (feeds n es)
  have called := after n circuit here
  rw [feeds_append, emitted, List.map_append, calls_append, before n circuit here] at called
  exact ⟨actions, List.append_cancel_left called⟩

theorem mem_of_called {n : Nat} {action : Action} {actions : List Action}
    {es : List (Event Line Json)} (called : .called n ⟨Action, action⟩ ∈ es)
    (all : calls n es = actions.map (Sigma.mk Action)) : action ∈ actions := by
  have listed : (⟨Action, action⟩ : (α : Type) × α) ∈ calls n es :=
    List.mem_filterMap.mpr ⟨_, called, by rw [call?, if_pos rfl]⟩
  rw [all] at listed
  obtain ⟨action', member, same⟩ := List.mem_map.mp listed
  obtain rfl : action' = action := by injection same
  exact member

namespace Engine

variable {ς : Type}

/-- What happens in publications, the start of the rules and more publications. -/
def sessionEvents (budget : Nat) (before : List (String × Json)) (config : EngineConfig)
    (after : List (String × Json)) (engine : Engine ς) : List (Event Line Json) :=
  engine.publishAllEvents budget before ++
    match engine.publishAll budget before with
    | none => []
    | some ready =>
      ready.startEvents budget config ++
        match ready.start budget config with
        | none => []
        | some (started, _) => started.publishAllEvents budget after

/-- A publication from outside publishes its value and nothing else. -/
theorem confined_publication (path : String) (value : Json) :
    (publication path value : PlantScript ς).Confined (InGeneration 0)
      fun line published => line = ⟨0, path⟩ ∧ published = value :=
  Drive.confined_publish ⟨rfl, rfl⟩ fun _ => .change (fun _ here => here) .done

/-- An engine at rest, the circuits of its rules so far and all that has happened. -/
structure Tracked (sink : Sink ς) (circuits : List Circuit) (events : List (Event Line Json))
    (engine : Engine ς) : Prop where
  same_sink : engine.sink = sink
  sound : Sound events engine.network []
  tame : Tame (InGeneration 0) engine.network []
  wired : Wired sink engine.network circuits

/-- Rules that have been enabled, and others that have not, have done what their circuits say. -/
theorem Wired.followed {sink : Sink ς} {network : PlantNetwork ς} {circuits all : List Circuit}
    {events : List (Event Line Json)} {stack : List (Frame Line Json Entry (Plant ς))}
    (wired : Wired sink network circuits) (sound : Sound events network stack)
    (start : circuits <+: all) : Followed all events := by
  intro n circuit here
  obtain ⟨rest, rfl⟩ := start
  rw [List.getElem?_append] at here
  split at here
  · obtain ⟨state, drive, _, stands⟩ := wired.circuit n circuit here
    exact sound.recorded.calls n _ stands
  · rename_i beyond
    have fresh := sound.recorded.fresh n (by rw [wired.length]; omega)
    rw [fresh.1, fresh.2]
    rfl

namespace Tracked

variable {sink : Sink ς} {circuits : List Circuit} {events : List (Event Line Json)}
variable {engine after : Engine ς} {budget : Nat}

theorem start (sink : Sink ς) (remembered : ς) (logs : Option RuleLog.Site) :
    Tracked sink [] [] (Engine.new sink remembered logs) := by
  have calm : Calm 0 (fun _ : ς => True) [] (Engine.new sink remembered logs).network :=
    .start trivial
  exact ⟨rfl, calm.sound, ⟨nofun, nofun, rfl⟩, .start sink _⟩

theorem followed (tracked : Tracked sink circuits events engine) {all : List Circuit}
    (start : circuits <+: all) : Followed all events :=
  tracked.wired.followed tracked.sound start

theorem aside (tracked : Tracked sink circuits events engine) (still : engine.Aside after) :
    Tracked sink circuits events after where
  same_sink := still.sink.trans tracked.same_sink
  sound := tracked.sound.congr still.alike.subjects still.alike.subscriptions
  tame := by
    refine ⟨?_, nofun, still.generation.trans tracked.tame.holds⟩
    rw [still.alike.subscriptions]
    exact tracked.tame.listeners
  wired := tracked.wired.keeps (.of_eq still.alike.subscriptions)
    (by rw [still.alike.subscriptions])

/-- What holds during a publication, and after it. -/
theorem run_publication (tracked : Tracked sink circuits events engine) {path : String}
    {value : Json} {es : List (Event Line Json)} {network : PlantNetwork ς}
    {stack : List (Frame Line Json Entry (Plant ς))}
    (run : Run engine.network [.script (publication path value)] es network stack) :
    Sound (events ++ es) network stack ∧ Tame (InGeneration 0) network stack ∧
      Wired sink network circuits ∧ Staying es := by
  have tame : Tame (InGeneration 0) engine.network [.script (publication path value)] :=
    tracked.tame.put rfl tracked.tame.holds (confined_publication path value).tame
  obtain ⟨tame', length⟩ := tame.run run
  exact ⟨(tracked.sound.script _).run run, tame', tracked.wired.keeps run.keeps length,
    tame.staying run⟩

theorem publish (tracked : Tracked sink circuits events engine) {path : String} {value : Json}
    {audience : Nat} (ends : engine.publish budget path value = some (after, audience)) :
    Tracked sink circuits (events ++ engine.publishEvents budget path value) after := by
  obtain ⟨network, rfl, run⟩ := run_of_publish ends
  obtain ⟨sound, tame, wired, _⟩ := tracked.run_publication run
  exact ⟨tracked.same_sink, sound, tame, wired⟩

theorem publishing (tracked : Tracked sink circuits events engine) (budget : Nat) (path : String)
    (value : Json) {all : List Circuit} (start : circuits <+: all) :
    Followed all (events ++ engine.publishEvents budget path value) ∧
      Staying (engine.publishEvents budget path value) := by
  obtain ⟨network, stack, run⟩ :=
    run_of_events budget engine.network [.script (publication path value)]
  obtain ⟨sound, _, wired, staying⟩ := tracked.run_publication run
  exact ⟨wired.followed sound start, staying⟩

/--
During publications and after them, rules have done what their circuits say, and none has been
taken away.
-/
theorem publishAll (tracked : Tracked sink circuits events engine) (budget : Nat)
    (values : List (String × Json)) {all : List Circuit} (start : circuits <+: all) :
    Followed all (events ++ engine.publishAllEvents budget values) ∧
      Staying (engine.publishAllEvents budget values) ∧
      ∀ after, engine.publishAll budget values = some after →
        Tracked sink circuits (events ++ engine.publishAllEvents budget values) after ∧
          after.active = engine.active ∧ after.running = engine.running := by
  induction values generalizing engine events with
  | nil =>
    rw [publishAllEvents, List.append_nil]
    refine ⟨tracked.followed start, fun _ => List.not_mem_nil, fun after ends => ?_⟩
    obtain rfl := Option.some.inj ends
    exact ⟨tracked, rfl, rfl⟩
  | cons first rest ih =>
    obtain ⟨path, value⟩ := first
    obtain ⟨followed, staying⟩ := tracked.publishing budget path value start
    rw [publishAllEvents, ← List.append_assoc, Engine.publishAll]
    cases ends : engine.publish budget path value with
    | none =>
      rw [List.append_nil, List.append_nil]
      refine ⟨followed, staying, ?_⟩
      intro after ends'
      cases ends'
    | some result =>
      obtain ⟨middle, audience⟩ := result
      obtain ⟨followed', staying', done⟩ := ih (tracked.publish ends)
      refine ⟨followed', staying.append staying', fun after ends' => ?_⟩
      obtain ⟨tracked', active, running⟩ := done after ends'
      obtain ⟨network, rfl, _⟩ := run_of_publish ends
      exact ⟨tracked', active, running⟩

/-- What holds while a rule is being subscribed, and after that. -/
theorem run_subscription (tracked : Tracked sink circuits events engine) {circuit : Circuit}
    {drive : Drive} (output : drive.output = circuit.output) {es : List (Event Line Json)}
    {network : PlantNetwork ς} {stack : List (Frame Line Json Entry (Plant ς))}
    (run : Run engine.network
      [.script (.subscribe circuit.actions (drive.fire sink) fun _ => .done)] es network stack) :
    Sound (events ++ es) network stack ∧ Staying es ∧
      (stack ≠ [] ∧ Wired sink network circuits ∨
        Tame (InGeneration 0) network stack ∧ Wired sink network (circuits ++ [circuit])) := by
  refine ⟨(tracked.sound.script _).run run, ?_⟩
  cases run with
  | still => exact ⟨fun _ => List.not_mem_nil, .inl ⟨nofun, tracked.wired⟩⟩
  | step moves run =>
    obtain ⟨rfl, rfl⟩ := Prod.mk.inj moves
    have joined : Tame (InGeneration 0)
        { engine.network with subscriptions := engine.network.subscriptions ++
          [⟨circuit.actions, circuit.actions.initial, drive.fire sink⟩] }
        [.opening engine.network.subscriptions.length 0 circuit.actions.leaves .done] := by
      refine ⟨?_, ?_, tracked.tame.holds⟩
      · intro s member
        rcases List.mem_append.mp member with old | new
        · exact tracked.tame.listeners s old
        · obtain rfl := List.mem_singleton.mp new
          exact fun action => (drive.confined_fire sink action).tame
      · intro frame member
        obtain rfl := List.mem_singleton.mp member
        exact .done
    obtain ⟨tame, length⟩ := joined.run run
    rw [List.length_append, List.length_singleton] at length
    obtain ⟨state, stands⟩ := run.keeps engine.network.subscriptions.length
      ⟨circuit.actions, circuit.actions.initial, drive.fire sink⟩ (by simp)
    have keeps : engine.network.Keeps network := by
      intro n s here
      refine run.keeps n s ?_
      rw [List.getElem?_append_left (List.getElem?_eq_some_iff.mp here).1]
      exact here
    have staying : Staying
        ([.subscribed engine.network.subscriptions.length] : List (Event Line Json)) :=
      .of_still (List.forall_mem_singleton.mpr trivial)
    exact ⟨staying.append (joined.staying run),
      .inr ⟨tame, tracked.wired.snoc keeps length output stands⟩⟩

theorem subscribe (tracked : Tracked sink circuits events engine) {circuit : Circuit}
    {drive : Drive} (output : drive.output = circuit.output) {handle : Handle Line}
    (ends : engine.subscribe budget circuit.actions (drive.fire engine.sink) =
      some (after, handle)) :
    Tracked sink (circuits ++ [circuit])
      (events ++ engine.subscribeEvents budget circuit.actions (drive.fire engine.sink)) after := by
  obtain ⟨network, rfl, run⟩ := run_of_subscribe ends
  rw [tracked.same_sink] at run ⊢
  obtain ⟨sound, _, ⟨busy, _⟩ | ⟨tame, wired⟩⟩ := tracked.run_subscription output run
  · exact absurd rfl busy
  · exact ⟨tracked.same_sink, sound, tame, wired⟩

theorem subscribing (tracked : Tracked sink circuits events engine) {circuit : Circuit}
    {drive : Drive} (output : drive.output = circuit.output) (budget : Nat) {all : List Circuit}
    (start : circuits ++ [circuit] <+: all) :
    Followed all
        (events ++ engine.subscribeEvents budget circuit.actions (drive.fire engine.sink)) ∧
      Staying (engine.subscribeEvents budget circuit.actions (drive.fire engine.sink)) := by
  rw [tracked.same_sink]
  obtain ⟨network, stack, run⟩ := run_of_events budget engine.network
    [.script (.subscribe circuit.actions (drive.fire sink) fun _ => .done)]
  obtain ⟨sound, staying, ⟨_, wired⟩ | ⟨_, wired⟩⟩ := tracked.run_subscription output run
  · exact ⟨wired.followed sound ((List.prefix_append ..).trans start), staying⟩
  · exact ⟨wired.followed sound start, staying⟩

/-- While candidates are being enabled after other rules, and after that. -/
theorem enableAll (tracked : Tracked sink circuits events engine) (budget : Nat)
    (config : EngineConfig) (candidates : List (RuleConfig × Nat)) {all : List Circuit}
    (left : circuits ++ circuitsOf candidates = all) :
    Followed all (events ++ engine.enableAllEvents budget config candidates) ∧
      Staying (engine.enableAllEvents budget config candidates) ∧
      ∀ after outcomes, Engine.enableAll budget config candidates engine = some (after, outcomes) →
        Tracked sink all (events ++ engine.enableAllEvents budget config candidates) after ∧
          List.Forall₂ ActiveRule.Follows (activeOf outcomes) (circuitsOf candidates) := by
  induction candidates generalizing engine circuits events with
  | nil =>
    obtain rfl : circuits = all := by simpa [circuitsOf] using left
    rw [enableAllEvents, List.append_nil]
    refine ⟨tracked.followed (List.prefix_refl _), fun _ => List.not_mem_nil,
      fun after outcomes ends => ?_⟩
    obtain ⟨rfl, rfl⟩ := Prod.mk.inj (Option.some.inj ends)
    exact ⟨tracked, .nil⟩
  | cons candidate rest ih =>
    obtain ⟨rule, index⟩ := candidate
    rw [enableAllEvents, ← List.append_assoc, Engine.enableAll]
    rcases enable_post config index rule tracked.tame.holds with
      ⟨nothing, middle, dropped, still, does⟩ |
      ⟨post, ready, drive, active, something, readies, fills, does⟩
    · obtain ⟨ends, silent⟩ := does budget
      rw [circuitsOf, config.circuit?_eq, nothing] at left ⊢
      obtain ⟨followed, staying, done⟩ := ih (tracked.aside still.toAside) left
      rw [ends, silent, List.append_nil]
      refine ⟨followed, staying, fun after outcomes ends' => ?_⟩
      obtain ⟨⟨last, outcomes'⟩, rest_ends, same⟩ := Option.map_eq_some_iff.mp ends'
      obtain ⟨rfl, rfl⟩ := Prod.mk.inj same
      exact done last outcomes' rest_ends
    · obtain ⟨ends, watched⟩ := does budget
      have ready_tracked := tracked.aside readies.aside
      have split : circuits ++ [post.circuit] ++ circuitsOf rest = all := by
        rw [circuitsOf, config.circuit?_eq, something] at left
        simpa using left
      obtain ⟨followed, staying⟩ := ready_tracked.subscribing readies.serves.output budget ⟨_, split⟩
      rw [ends, watched, ← readies.aside.sink]
      cases subscribed : ready.subscribe budget post.circuit.actions (drive.fire ready.sink) with
      | none =>
        rw [Option.map_none, List.append_nil, List.append_nil]
        refine ⟨followed, staying, ?_⟩
        intro after outcomes ends'
        cases ends'
      | some result =>
        obtain ⟨middle, handle⟩ := result
        rw [Option.map_some]
        obtain ⟨followed', staying', done⟩ :=
          ih (ready_tracked.subscribe readies.serves.output subscribed) split
        refine ⟨followed', staying.append staying', fun after outcomes ends' => ?_⟩
        obtain ⟨⟨last, outcomes'⟩, rest_ends, same⟩ := Option.map_eq_some_iff.mp ends'
        obtain ⟨rfl, rfl⟩ := Prod.mk.inj same
        obtain ⟨tracked', follows'⟩ := done last outcomes' rest_ends
        rw [circuitsOf, config.circuit?_eq, something]
        exact ⟨tracked', .cons (fills handle).follows follows'⟩

/-- While the rules are being started, where others have been at work before, and after that. -/
theorem starting (tracked : Tracked sink circuits events engine) (none_active : engine.active = [])
    (idle : engine.running = false) (budget : Nat) (config : EngineConfig) :
    Followed (circuits ++ config.circuits) (events ++ engine.startEvents budget config) ∧
      Staying (engine.startEvents budget config) ∧
      ∀ started result, engine.start budget config = some (started, result) →
        Tracked sink (circuits ++ config.circuits) (events ++ engine.startEvents budget config)
            started ∧
          List.Forall₂ ActiveRule.Follows started.active config.circuits := by
  by_cases unusable : config.usableCount = 0
  · rw [startEvents, if_pos (.inr unusable), List.append_nil, circuits_of_unusable unusable,
      List.append_nil, start_unusable idle unusable]
    refine ⟨tracked.followed (List.prefix_refl _), fun _ => List.not_mem_nil,
      fun started result ends => ?_⟩
    obtain ⟨rfl, rfl⟩ := Prod.mk.inj (Option.some.inj ends)
    rw [failed_active, none_active]
    exact ⟨tracked.aside (Still.failed engine config).toAside, .nil⟩
  · have begins : ¬(engine.running = true ∨ config.usableCount = 0) := by simp [idle, unusable]
    rw [startEvents, if_neg begins, start_usable idle unusable]
    obtain ⟨followed, staying, done⟩ :=
      (tracked.aside (Still.operating engine config).toAside).enableAll budget config config.candidates rfl
    refine ⟨followed, staying, fun started result ends => ?_⟩
    obtain ⟨⟨last, outcomes⟩, enabled, same⟩ := Option.map_eq_some_iff.mp ends
    obtain ⟨rfl, rfl⟩ := Prod.mk.inj same
    obtain ⟨tracked', follows⟩ := done last outcomes enabled
    exact ⟨tracked'.aside (Still.atWork last config outcomes).toAside, follows⟩

end Tracked

/--
In a whole session, finished or not, rules have done what their circuits say, and none has been
taken away.
-/
theorem session_undisturbed (sink : Sink ς) (remembered : ς) (logs : Option RuleLog.Site)
    (config : EngineConfig) (before after : List (String × Json)) (budget : Nat) :
    let trace := (Engine.new sink remembered logs).sessionEvents budget before config after
    Followed config.circuits trace ∧ Staying trace := by
  intro trace
  have fresh := Tracked.start sink remembered logs
  have none_yet : [] <+: config.circuits := List.nil_prefix ..
  obtain ⟨followed, staying, done⟩ := fresh.publishAll budget before none_yet
  rw [List.nil_append] at followed
  show Followed _ (sessionEvents ..) ∧ Staying (sessionEvents ..)
  rw [sessionEvents]
  cases published : (Engine.new sink remembered logs).publishAll budget before with
  | none =>
    rw [List.append_nil]
    exact ⟨followed, staying⟩
  | some ready =>
    obtain ⟨tracked, active, running⟩ := done ready published
    obtain ⟨followed', staying', done'⟩ := tracked.starting active running budget config
    rw [List.nil_append, List.nil_append] at followed' done'
    rw [← List.append_assoc]
    cases starts : ready.start budget config with
    | none =>
      rw [List.append_nil]
      exact ⟨followed', staying.append staying'⟩
    | some result =>
      obtain ⟨started, report⟩ := result
      obtain ⟨followed'', staying'', _⟩ :=
        (done' started report starts).1.publishAll budget after (List.prefix_refl _)
      exact ⟨followed'', (staying.append staying').append staying''⟩

theorem session_followed (sink : Sink ς) (remembered : ς) (logs : Option RuleLog.Site)
    (config : EngineConfig) (before after : List (String × Json)) (budget : Nat) :
    Followed config.circuits
      ((Engine.new sink remembered logs).sessionEvents budget before config after) :=
  (session_undisturbed sink remembered logs config before after budget).1

/-- After a session that has come to its end. -/
theorem session_tracked {sink : Sink ς} {remembered : ς} {logs : Option RuleLog.Site}
    {config : EngineConfig} {before after : List (String × Json)} {budget : Nat}
    {ready started engine : Engine ς} {result : Except RuleError StartReport}
    (published : (Engine.new sink remembered logs).publishAll budget before = some ready)
    (starts : ready.start budget config = some (started, result))
    (published' : started.publishAll budget after = some engine) :
    Tracked sink config.circuits
        ((Engine.new sink remembered logs).sessionEvents budget before config after) engine ∧
      List.Forall₂ ActiveRule.Follows started.active config.circuits := by
  have none_yet : [] <+: config.circuits := List.nil_prefix ..
  obtain ⟨_, _, done⟩ := (Tracked.start sink remembered logs).publishAll budget before none_yet
  obtain ⟨tracked, active, running⟩ := done ready published
  obtain ⟨_, _, done'⟩ := tracked.starting active running budget config
  obtain ⟨tracked', follows⟩ := done' started result starts
  obtain ⟨_, _, done''⟩ := tracked'.publishAll budget after (List.prefix_refl _)
  have tracked'' := (done'' engine published').1
  simp only [sessionEvents, published, starts, ← List.append_assoc]
  exact ⟨tracked'', follows⟩

/-- In the end of a session, whatever budget it takes. -/
theorem session_rests {sink : Sink ς} {remembered : ς} {logs : Option RuleLog.Site}
    {config : EngineConfig} {before after : List (String × Json)} {ready started engine : Engine ς}
    (published : (Engine.new sink remembered logs).Publishes before ready)
    (starts : ready.Starts config started) (published' : started.Publishes after engine) :
    ∃ events, Tracked sink config.circuits events engine ∧ Staying events ∧
      List.Forall₂ ActiveRule.Follows started.active config.circuits ∧
      engine.active = started.active ∧ (engine.running = true ∨ engine.active = []) := by
  obtain ⟨first, publishes⟩ := published
  obtain ⟨second, _, starts⟩ := starts
  obtain ⟨third, publishes'⟩ := published'
  let budget := max first (max second third)
  have starts_now := starts budget (by omega)
  obtain ⟨_, staying, done⟩ := (Tracked.start sink remembered logs).publishAll budget before
    (List.prefix_refl [])
  obtain ⟨fresh, none_active, idle⟩ := done ready (publishes budget (by omega))
  obtain ⟨_, staying', done⟩ := fresh.starting none_active idle budget config
  obtain ⟨working, follows⟩ := done started _ starts_now
  obtain ⟨_, staying'', done⟩ := working.publishAll budget after (List.prefix_refl _)
  obtain ⟨used, same_active, same_running⟩ := done engine (publishes' budget (by omega))
  refine ⟨_, used, (staying.append staying').append staying'', follows, same_active, ?_⟩
  rw [same_active, same_running]
  exact running_of_start none_active idle starts_now

end Engine

end Switchboard
