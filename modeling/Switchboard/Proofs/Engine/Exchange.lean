import Switchboard.Proofs.Engine.Budget
import Switchboard.Proofs.Engine.Deliveries
import Switchboard.Proofs.Network.Similar

/-!
# Exchanging the sink

Two engines whose sinks are offered the same, and report the same back, make
the same deliveries. They may hear of a delivery at different times, keep rule
logs or none, note different things and show different ones to an operator: no
rule looks at any of it. What one of them does within its budget the other one
does with every large budget.
-/
namespace Switchboard

open Network

variable {ς ς' : Type}

namespace Plant

/-- The plant without what its sink remembers. -/
def bare (plant : Plant ς) : Plant Unit :=
  ⟨plant.bus, plant.board, plant.tallies, (), plant.audience⟩

/-- What rules may look at: the plant without what its sink remembers and what is shown. -/
def core (plant : Plant ς) : Plant Unit := { plant.bare with board := ⟨none, none⟩ }

/-- The plant after a change in which its sink has no part. -/
def amend (f : Plant Unit → Plant Unit) (plant : Plant ς) : Plant ς :=
  ⟨(f plant.bare).bus, (f plant.bare).board, (f plant.bare).tallies, plant.sink,
    (f plant.bare).audience⟩

/-- A change that goes the same way whatever is shown to an operator. -/
def Blind (f : Plant Unit → Plant Unit) : Prop := ∀ plant, (f plant).core = (f plant.core).core

/-- Plants that differ at most in what their sinks remember and in what they show. -/
structure Alike (paired : ς → ς' → Prop) (plant : Plant ς) (plant' : Plant ς') : Prop where
  core : plant.core = plant'.core
  sinks : paired plant.sink plant'.sink

namespace Alike

variable {paired : ς → ς' → Prop} {plant : Plant ς} {plant' : Plant ς'}

theorem bus (alike : Alike paired plant plant') : plant.bus = plant'.bus :=
  congrArg Plant.bus alike.core

theorem tallies (alike : Alike paired plant plant') : plant.tallies = plant'.tallies :=
  congrArg Plant.tallies alike.core

theorem audience (alike : Alike paired plant plant') : plant.audience = plant'.audience :=
  congrArg Plant.audience alike.core

theorem amend {f : Plant Unit → Plant Unit} (blind : Blind f) (alike : Alike paired plant plant') :
    Alike paired (plant.amend f) (plant'.amend f) where
  core := calc
    (f plant.bare).core = (f plant.core).core := blind plant.bare
    _ = (f plant'.core).core := by rw [alike.core]
    _ = (f plant'.bare).core := (blind plant'.bare).symm
  sinks := alike.sinks

/-- To be alike does not depend on which plant is named first. -/
theorem flip (paired : ς → ς' → Prop) : flip (Alike paired) = Alike (flip paired) := by
  funext plant' plant
  exact propext ⟨fun h => ⟨h.core.symm, h.sinks⟩, fun h => ⟨h.core.symm, h.sinks⟩⟩

end Alike

end Plant

namespace PlantScript

/-- Scripts that do the same to plants that are alike, and make the same deliveries. -/
abbrev Similar (paired : ς → ς' → Prop) (script : PlantScript ς) (script' : PlantScript ς') :
    Prop :=
  Script.Similar (Plant.Alike paired) Entry.delivery? script script'

variable {paired : ς → ς' → Prop}

theorem similar_note {level level' : Level} {origin origin' : Origin} {text text' : String}
    {next : PlantScript ς} {next' : PlantScript ς'} (h : Similar paired next next') :
    Similar paired (note level origin text next) (note level' origin' text' next') :=
  .left rfl (.right rfl h)

theorem similar_change (f : Plant Unit → Plant Unit) (blind : Plant.Blind f)
    {next : PlantScript ς} {next' : PlantScript ς'} (h : Similar paired next next') :
    Similar paired (.change (Plant.amend f) next) (.change (Plant.amend f) next') :=
  .change (fun _ _ alike => alike.amend blind) h

theorem similar_publish (path : String) (value : Json) {next : Nat → PlantScript ς}
    {next' : Nat → PlantScript ς'} (h : ∀ n, Similar paired (next n) (next' n)) :
    Similar paired (publish path value next) (publish path value next') := by
  refine similar_note
    (similar_change (fun plant => { plant with bus := plant.bus.touch path }) (fun _ => rfl) ?_)
  refine .consult fun plant plant' alike => ?_
  rw [alike.bus]
  exact .publish h

end PlantScript

/-- Every rule does the same with either sink, whether or not it keeps a log. -/
def Sink.Agrees (paired : ς → ς' → Prop) (sink : Sink ς) (sink' : Sink ς') : Prop :=
  ∀ (drive : Drive) (log : Option String) (action : Action),
    PlantScript.Similar paired (drive.fire sink action)
      ({ drive with log := log }.fire sink' action)

theorem Sink.Agrees.symm {paired : ς → ς' → Prop} {sink : Sink ς} {sink' : Sink ς'}
    (agrees : sink.Agrees paired sink') : sink'.Agrees (flip paired) sink := by
  intro drive log action
  rw [PlantScript.Similar, ← Plant.Alike.flip]
  exact (agrees { drive with log := log } drive.log action).symm

namespace Drive

open PlantScript

variable {paired : ς → ς' → Prop} (drive : Drive) (log : Option String)

/-- What is written to rule logs is nobody's business. -/
theorem similar_writeLog (action : Action) (outcome : String) {next : PlantScript ς}
    {next' : PlantScript ς'} (h : Similar paired next next') :
    Similar paired (drive.writeLog action outcome next)
      ({ drive with log := log }.writeLog action outcome next') := by
  unfold writeLog
  split
  · split
    · exact .left rfl (.right rfl h)
    · exact .left rfl h
  · split
    · exact .right rfl h
    · exact h

/-- Where every delivery goes alike, rules do. -/
theorem agrees_of_deliver {sink : Sink ς} {sink' : Sink ς'}
    (delivers : ∀ (drive : Drive) (log : Option String) (value : Json),
      Similar paired (drive.deliver sink value) ({ drive with log := log }.deliver sink' value)) :
    sink.Agrees paired sink' := by
  intro drive log action
  refine similar_note (similar_change (Plant.setMessage _) (fun _ => rfl) ?_)
  dsimp only
  cases drive.output.output action with
  | error e =>
    exact similar_note
      (drive.similar_writeLog log action _ (similar_change (Plant.setError _) (fun _ => rfl) .done))
  | ok value =>
    refine similar_change (Plant.count drive.rule action) (fun _ => rfl)
      (drive.similar_writeLog log action _ ?_)
    cases value with
    | none => exact similar_note .done
    | some value => exact delivers drive log value

end Drive

/-- An outlet that takes everything, and reports every value back or none. -/
structure Outlet.Serves (loopback : Bool) (outlet : Outlet) : Prop where
  unlimited : outlet.allowance = none
  loopback : outlet.loopback = loopback
  succeeds : outlet.response.isSuccess = true

/-- Two outlets that take everything, and report the same back. -/
def Outlet.Peers (loopback : Bool) (outlet outlet' : Outlet) : Prop :=
  outlet.Serves loopback ∧ outlet'.Serves loopback

theorem Outlet.Serves.offer {loopback : Bool} {outlet : Outlet} (serves : outlet.Serves loopback)
    (delivery : Delivery) :
    outlet.offer delivery = (outlet, .taken outlet.response loopback) := by
  rw [Outlet.offer, serves.unlimited, Outlet.answer, serves.loopback, serves.succeeds, Bool.or_true,
    Bool.and_true]

open PlantScript in
/-- It makes no difference whether a sink acknowledges before or after it reports a value back. -/
theorem Outlet.memory_agrees (loopback : Bool) :
    Outlet.memory.Agrees (Outlet.Peers loopback) Outlet.sink := by
  refine Drive.agrees_of_deliver fun drive log value => similar_note (.consult ?_)
  rintro plant plant' ⟨_, serves, serves'⟩
  simp only [Outlet.memory, Outlet.sink, serves.offer, serves'.offer]
  refine .change (fun _ _ alike => ⟨alike.core, serves, serves'⟩) (.record ?_)
  unfold acknowledge Drive.noteAnswer
  cases drive.mode <;> cases loopback
  · exact .done
  · exact similar_publish _ _ fun _ => .done
  · exact similar_note .done
  · exact .left rfl (similar_publish _ _ fun _ => .right rfl .done)

namespace Engine

/-- Engines that do the same with their sinks and stand alike. -/
structure Mirrors (paired : ς → ς' → Prop) (engine : Engine ς) (engine' : Engine ς') : Prop where
  sinks : engine.sink.Agrees paired engine'.sink
  network : engine.network.Similar (Plant.Alike paired) Entry.delivery? engine'.network
  active : engine.active = engine'.active
  running : engine.running = engine'.running

variable {paired : ς → ς' → Prop} {engine after : Engine ς} {engine' : Engine ς'}

namespace Mirrors

theorem symm (mirrors : engine.Mirrors paired engine') : engine'.Mirrors (flip paired) engine where
  sinks := mirrors.sinks.symm
  network := by
    rw [← Plant.Alike.flip]
    exact mirrors.network.symm
  active := mirrors.active.symm
  running := mirrors.running.symm

theorem alike (mirrors : engine.Mirrors paired engine') :
    Plant.Alike paired engine.plant engine'.plant :=
  mirrors.network.memory

theorem withNetwork (mirrors : engine.Mirrors paired engine') {network : PlantNetwork ς}
    {network' : PlantNetwork ς'}
    (similar : network.Similar (Plant.Alike paired) Entry.delivery? network') :
    (engine.withNetwork network).Mirrors paired (engine'.withNetwork network') :=
  { mirrors with network := similar }

theorem write_left (mirrors : engine.Mirrors paired engine') {entries : List Entry}
    (unread : ∀ entry ∈ entries, entry.delivery? = none) :
    (engine.write entries).Mirrors paired engine' :=
  { mirrors with network := mirrors.network.write_left unread }

theorem write_right (mirrors : engine.Mirrors paired engine') {entries : List Entry}
    (unread : ∀ entry ∈ entries, entry.delivery? = none) :
    engine.Mirrors paired (engine'.write entries) :=
  { mirrors with network := mirrors.network.write_right unread }

/-- Both may note what they like. -/
theorem note (mirrors : engine.Mirrors paired engine') (level : Level) (text : String) :
    (engine.note level text).Mirrors paired (engine'.note level text) :=
  { mirrors with network := mirrors.network.write_both _ }

theorem alter (mirrors : engine.Mirrors paired engine') (f : Plant Unit → Plant Unit)
    (blind : Plant.Blind f) :
    (engine.alter (Plant.amend f)).Mirrors paired (engine'.alter (Plant.amend f)) :=
  { mirrors with network := { mirrors.network with memory := mirrors.alike.amend blind } }

theorem setMessage (mirrors : engine.Mirrors paired engine') (message : String) :
    (engine.setMessage message).Mirrors paired (engine'.setMessage message) :=
  (mirrors.note _ _).alter (Plant.setMessage message) fun _ => rfl

theorem noteDropped (mirrors : engine.Mirrors paired engine') (context : String)
    (dropped : DroppedRule) :
    (engine.noteDropped context dropped).Mirrors paired (engine'.noteDropped context dropped) :=
  (mirrors.note _ _).alter (Plant.setError _) fun _ => rfl

theorem noted (mirrors : engine.Mirrors paired engine') (rule : RuleConfig) :
    (engine.noted rule).Mirrors paired (engine'.noted rule) := by
  have written : ((engine.note .debug ("enabling rule " ++ rule.displayName)).write
      (rule.compileNotes.map .note)).Mirrors paired
      ((engine'.note .debug ("enabling rule " ++ rule.displayName)).write
        (rule.compileNotes.map .note)) :=
    { mirrors with network := (mirrors.note _ _).network.write_both _ }
  exact written.alter (fun plant => { plant with bus := plant.bus.touchAll rule.compilePaths })
    fun _ => rfl

theorem sorted (mirrors : engine.Mirrors paired engine') (config : EngineConfig) :
    (engine.sorted config).Mirrors paired (engine'.sorted config) := by
  unfold Engine.sorted
  generalize config.incomplete = dropped
  induction dropped generalizing engine engine' with
  | nil => exact mirrors
  | cons first rest ih => exact ih (mirrors.noteDropped _ _)

theorem operating (mirrors : engine.Mirrors paired engine') (config : EngineConfig) :
    (engine.operating config).Mirrors paired (engine'.operating config) :=
  (mirrors.sorted config).setMessage _

theorem failed (mirrors : engine.Mirrors paired engine') (config : EngineConfig) :
    (engine.failed config).Mirrors paired (engine'.failed config) :=
  ((mirrors.sorted config).note _ _).alter (Plant.setError _) fun _ => rfl

theorem atWork (mirrors : engine.Mirrors paired engine') (config : EngineConfig)
    (outcomes : List (Except DroppedRule ActiveRule)) :
    (engine.atWork config outcomes).Mirrors paired (engine'.atWork config outcomes) :=
  { mirrors.note _ _ with active := rfl, running := rfl }

theorem takeLog_left (mirrors : engine.Mirrors paired engine') (key : String) :
    (engine.takeLog key).1.Mirrors paired engine' := by
  unfold Engine.takeLog
  split
  · exact mirrors
  · rename_i shelf _
    have moved :
        ({ engine with logs := some (shelf.get key).1 } : Engine ς).Mirrors paired engine' :=
      { mirrors with }
    exact moved.write_left (shelf.get_unread (fun _ => rfl) (fun _ => rfl) key)

theorem takeLog (mirrors : engine.Mirrors paired engine') (key : String) :
    (engine.takeLog key).1.Mirrors paired (engine'.takeLog key).1 :=
  ((mirrors.takeLog_left key).symm.takeLog_left key).symm

theorem prepared (mirrors : engine.Mirrors paired engine') (compiled : CompiledRule) :
    (engine.prepared compiled).Mirrors paired (engine'.prepared compiled) :=
  (mirrors.takeLog compiled.key).alter
    (fun plant => { plant with tallies := plant.tallies ++ [.zero] }) fun _ => rfl

/-- What a script does in one engine, a similar script does in the other. -/
theorem perform (mirrors : engine.Mirrors paired engine') {script : PlantScript ς}
    {script' : PlantScript ς'} (same : PlantScript.Similar paired script script') {budget : Nat}
    (ends : engine.perform budget script = some after) :
    ∃ least after', after.Mirrors paired after' ∧ ∀ more, least ≤ more →
      engine'.perform more script' = some after' := by
  obtain ⟨network, settled, rfl⟩ := Option.map_eq_some_iff.mp ends
  obtain ⟨network', ⟨es, run⟩, similar⟩ := mirrors.network.perform same (run_of_settle settled)
  obtain ⟨least, ends'⟩ := perform_of_run run
  exact ⟨least, _, mirrors.withNetwork similar, fun more enough => (ends' more enough).1⟩

theorem subscribe (mirrors : engine.Mirrors paired engine') {α : Type} {stream : BusStream α}
    {listener : α → PlantScript ς} {listener' : α → PlantScript ς'}
    (heard : ∀ a, PlantScript.Similar paired (listener a) (listener' a)) {budget : Nat}
    {handle : Handle Line} (ends : engine.subscribe budget stream listener = some (after, handle)) :
    ∃ least after', after.Mirrors paired after' ∧ ∀ more, least ≤ more →
      engine'.subscribe more stream listener' = some (after', handle) := by
  obtain ⟨_, performs, same⟩ := Option.map_eq_some_iff.mp ends
  obtain ⟨rfl, rfl⟩ := Prod.mk.inj same
  obtain ⟨least, after', mirrors', ends'⟩ :=
    mirrors.perform (.subscribe heard fun _ => .done) performs
  refine ⟨least, after', mirrors', fun more enough => ?_⟩
  rw [Engine.subscribe, ends' more enough, mirrors.network.subscriptions.length_eq]
  rfl

theorem publish (mirrors : engine.Mirrors paired engine') {path : String} {value : Json}
    {budget audience : Nat} (ends : engine.publish budget path value = some (after, audience)) :
    ∃ least after', after.Mirrors paired after' ∧ ∀ more, least ≤ more →
      engine'.publish more path value = some (after', audience) := by
  obtain ⟨_, performs, same⟩ := Option.map_eq_some_iff.mp ends
  obtain ⟨rfl, rfl⟩ := Prod.mk.inj same
  obtain ⟨least, after', mirrors', ends'⟩ :=
    mirrors.perform (PlantScript.similar_publish path value fun n =>
      PlantScript.similar_change (fun plant => { plant with audience := n }) (fun _ => rfl)
        .done) performs
  refine ⟨least, after', mirrors', fun more enough => ?_⟩
  have performs' : engine'.perform more (publication path value) = some after' :=
    ends' more enough
  rw [publish_eq, performs', mirrors'.alike.audience]
  rfl

theorem activate (mirrors : engine.Mirrors paired engine') {compiled : CompiledRule} {budget : Nat}
    {active : ActiveRule} (ends : engine.activate budget compiled = some (after, active)) :
    ∃ least after', after.Mirrors paired after' ∧ ∀ more, least ≤ more →
      engine'.activate more compiled = some (after', active) := by
  obtain ⟨handle, rfl, subscribes⟩ := activate_eq_some.mp ends
  have fires : ∀ action, PlantScript.Similar paired
      ((engine.driveOf compiled).fire engine.sink action)
      ((engine'.driveOf compiled).fire engine'.sink action) := by
    intro action
    have same_drive : engine'.driveOf compiled = { engine.driveOf compiled with
        log := (engine'.driveOf compiled).log } := by
      rw [driveOf, driveOf, mirrors.alike.tallies]
      rfl
    rw [same_drive]
    exact mirrors.sinks _ _ action
  obtain ⟨least, after', mirrors', ends'⟩ :=
    (mirrors.prepared compiled).subscribe fires subscribes
  exact ⟨least, after', mirrors', fun more enough =>
    activate_eq_some.mpr ⟨handle, rfl, ends' more enough⟩⟩

/-- Whether a rule can be started is the same in both, and so is why not. -/
theorem enable (mirrors : engine.Mirrors paired engine') {config : EngineConfig} {index : Nat}
    {rule : RuleConfig} {budget : Nat} {outcome : Except DroppedRule ActiveRule}
    (ends : engine.enable budget config index rule = some (after, outcome)) :
    ∃ least after', after.Mirrors paired after' ∧ ∀ more, least ≤ more →
      engine'.enable more config index rule = some (after', outcome) := by
  simp only [enable_eq_some, ← mirrors.alike.bus]
  rcases enable_eq_some.mp ends with ⟨reason, compiles, rfl, rfl⟩ |
    ⟨compiled, active, compiles, rfl, activates⟩
  · exact ⟨0, _, (mirrors.noted rule).noteDropped _ _,
      fun _ _ => .inl ⟨reason, compiles, rfl, rfl⟩⟩
  · obtain ⟨least, after', mirrors', ends'⟩ := (mirrors.noted rule).activate activates
    exact ⟨least, after', mirrors', fun more enough =>
      .inr ⟨compiled, active, compiles, rfl, ends' more enough⟩⟩

theorem enableAll (mirrors : engine.Mirrors paired engine') {config : EngineConfig}
    {candidates : List (RuleConfig × Nat)} {budget : Nat}
    {outcomes : List (Except DroppedRule ActiveRule)}
    (ends : Engine.enableAll budget config candidates engine = some (after, outcomes)) :
    ∃ least after', after.Mirrors paired after' ∧ ∀ more, least ≤ more →
      Engine.enableAll more config candidates engine' = some (after', outcomes) := by
  induction candidates generalizing engine engine' outcomes with
  | nil =>
    obtain ⟨rfl, rfl⟩ := Prod.mk.inj (Option.some.inj ends)
    exact ⟨0, engine', mirrors, fun _ _ => rfl⟩
  | cons candidate rest ih =>
    obtain ⟨rule, index⟩ := candidate
    obtain ⟨middle, outcome, later, rfl, enabled, rest_ends⟩ := enableAll_cons.mp ends
    obtain ⟨least, middle', mirrors', ends'⟩ := mirrors.enable enabled
    obtain ⟨least', after', mirrors'', ends''⟩ := ih mirrors' rest_ends
    exact ⟨max least least', after', mirrors'', fun more enough => enableAll_cons.mpr
      ⟨middle', outcome, later, rfl, ends' more (by omega), ends'' more (by omega)⟩⟩

/-- A start has the same outcome in both. -/
theorem start (mirrors : engine.Mirrors paired engine') (idle : engine.running = false)
    {config : EngineConfig} {budget : Nat} {result : Except RuleError StartReport}
    (ends : engine.start budget config = some (after, result)) :
    ∃ least after', after.Mirrors paired after' ∧ ∀ more, least ≤ more →
      engine'.start more config = some (after', result) := by
  have idle' : engine'.running = false := mirrors.running ▸ idle
  rcases (start_eq_some idle).mp ends with ⟨unusable, rfl, rfl⟩ |
    ⟨usable, middle, outcomes, rfl, rfl, enables⟩
  · exact ⟨0, _, mirrors.failed config, fun more _ => start_unusable idle' unusable more⟩
  · obtain ⟨least, after', mirrors', ends'⟩ := (mirrors.operating config).enableAll enables
    exact ⟨least, _, mirrors'.atWork config outcomes, fun more enough => (start_eq_some idle').mpr
      (.inr ⟨usable, after', outcomes, rfl, rfl, ends' more enough⟩)⟩

/-- Publications lead from engines that stand alike to engines that stand alike. -/
theorem publishes (mirrors : engine.Mirrors paired engine') {values : List (String × Json)}
    (publishes : engine.Publishes values after) :
    ∃ after', after.Mirrors paired after' ∧ engine'.Publishes values after' := by
  induction values generalizing engine engine' with
  | nil =>
    obtain rfl := publishes.unique (.nil engine)
    exact ⟨engine', mirrors, .nil engine'⟩
  | cons first rest ih =>
    obtain ⟨path, value⟩ := first
    obtain ⟨budget, middle, audience, published, later⟩ := publishes_cons_iff.mp publishes
    obtain ⟨least, middle', mirrors', ends⟩ := mirrors.publish published
    obtain ⟨after', mirrors'', later'⟩ := ih mirrors' later
    exact ⟨after', mirrors'',
      publishes_cons_iff.mpr ⟨least, middle', audience, ends _ le_rfl, later'⟩⟩

/-- Both have made the same deliveries. -/
theorem deliveries (mirrors : engine.Mirrors paired engine') :
    engine.deliveries = engine'.deliveries := by
  rw [Engine.deliveries, Engine.deliveries, journal, journal, List.filterMap_reverse,
    List.filterMap_reverse, mirrors.network.journal]

end Mirrors

end Engine

end Switchboard
