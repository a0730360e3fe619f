import Switchboard.Proofs.Engine.Roster

/-!
# What an engine can come to

An engine may be started and stopped, and in between others use the bus: they
publish, come to stay, take registrations back, offer deliveries of their own,
and change what the sink remembers. Another engine may take the place of one
that is at rest. In every state that this leads to, the rules that are listed
are those at work, each under its own number; those that have been stopped are
attached nowhere, and where no rules are at work nobody has a tally.
-/
namespace Switchboard

open Event Network

variable {ς : Type}

namespace Engine

variable {engine after : Engine ς} {sink : Sink ς} {changes : ς → ς → Prop}

/-- What others do to a plant; `changes` says how they may change what the sink remembers. -/
inductive Visit (changes : ς → ς → Prop) (engine : Engine ς) :
    List (Event Line Json) → Engine ς → Prop where
  | performed {budget : Nat} {script : PlantScript ς} {after : Engine ς} (guest : script.Guest)
      (ends : engine.perform budget script = some after) :
      Visit changes engine (engine.network.events budget [.script script]) after
  | subscribed {α : Type} {budget : Nat} {stream : BusStream α} {listener : α → PlantScript ς}
      {after : Engine ς} {handle : Handle Line} (discreet : stream.Discreet Entry.kept?)
      (guest : ∀ a, (listener a).Guest)
      (ends : engine.subscribe budget stream listener = some (after, handle)) :
      Visit changes engine (engine.subscribeEvents budget stream listener) after
  | detached (registrations : List (Registration Line)) :
      Visit changes engine (registrations.map .detached) (engine.detach registrations)
  | adjusted {remembered : ς} (may : changes engine.plant.sink remembered) :
      Visit changes engine [] (engine.alter fun plant => { plant with sink := remembered })

/-- A moment of a visit: who acts or comes to stay may not have come to an end. -/
inductive Visiting (engine : Engine ς) : List (Event Line Json) → PlantNetwork ς →
    List (Frame Line Json Entry (Plant ς)) → Prop where
  | performing {script : PlantScript ς} {es : List (Event Line Json)} {network : PlantNetwork ς}
      {stack : List (Frame Line Json Entry (Plant ς))} (guest : script.Guest)
      (run : Run engine.network [.script script] es network stack) :
      Visiting engine es network stack
  | subscribing {α : Type} {stream : BusStream α} {listener : α → PlantScript ς}
      {es : List (Event Line Json)} {network : PlantNetwork ς}
      {stack : List (Frame Line Json Entry (Plant ς))} (discreet : stream.Discreet Entry.kept?)
      (guest : ∀ a, (listener a).Guest)
      (run : Run (engine.network.enlisted stream listener)
        [.opening engine.network.subscriptions.length 0 stream.leaves .done] es network stack) :
      Visiting engine (.subscribed engine.network.subscriptions.length :: es) network stack

/-- Any number of visits, with all that happens meanwhile. -/
inductive Visits (changes : ς → ς → Prop) (engine : Engine ς) :
    List (Event Line Json) → Engine ς → Prop where
  | none : Visits changes engine [] engine
  | more {es more : List (Event Line Json)} {middle after : Engine ς}
      (before : Visits changes engine es middle) (visit : Visit changes middle more after) :
      Visits changes engine (es ++ more) after

/-- To publish from outside is to visit. -/
theorem Visit.published {budget audience : Nat} {path : String} {value : Json}
    (ends : engine.publish budget path value = some (after, audience)) :
    Visit changes engine (engine.publishEvents budget path value) after := by
  obtain ⟨_, performs, same⟩ := Option.map_eq_some_iff.mp ends
  obtain ⟨rfl, _⟩ := Prod.mk.inj same
  exact .performed (guest_publication path value) performs

/-- To make paths known to the bus is to visit. -/
theorem Visit.touched (paths : List String) : Visit changes engine [] (engine.touch paths) := by
  let knows (plant : Plant Unit) : Plant Unit := { plant with bus := plant.bus.touchAll paths }
  have guest : PlantScript.Guest (.change (Plant.amend knows) .done : PlantScript ς) :=
    ⟨.change (fun _ => rfl) .done, PlantScript.similar_change knows (fun _ => rfl) .done⟩
  have ends : engine.perform 3 (.change (Plant.amend knows) .done : PlantScript ς) =
      some (engine.touch paths) := rfl
  exact .performed guest ends

/-- A new engine over the bus and the sink of another one. -/
def renewed (logs : Option RuleLog.Site) (engine : Engine ς) : Engine ς :=
  { Engine.new engine.sink engine.plant.sink logs with
    network := { engine.network with
      memory := { Plant.start engine.plant.sink with
        bus := engine.plant.bus
        audience := engine.plant.audience } } }

/-- What an engine with a certain sink can come to. -/
inductive Reachable (sink : Sink ς) : Engine ς → Prop where
  | new (remembered : ς) (logs : Option RuleLog.Site) :
      Reachable sink (.new sink remembered logs)
  | visit {engine after : Engine ς} {es : List (Event Line Json)} (before : Reachable sink engine)
      (visit : Visit (fun _ _ => True) engine es after) : Reachable sink after
  | offer {engine after : Engine ς} {budget : Nat} {delivery : Delivery} {answer : Answer}
      (before : Reachable sink engine)
      (ends : engine.offer budget delivery = some (after, answer)) : Reachable sink after
  | start {engine after : Engine ς} {budget : Nat} {config : EngineConfig}
      {result : Except RuleError StartReport} (before : Reachable sink engine)
      (ends : engine.start budget config = some (after, result)) : Reachable sink after
  | stop {engine : Engine ς} (before : Reachable sink engine) : Reachable sink engine.stop
  | renewed {engine : Engine ς} (before : Reachable sink engine) (idle : engine.running = false)
      (logs : Option RuleLog.Site) : Reachable sink (engine.renewed logs)

/-- The registrations of the rules that are listed. -/
def registrations (engine : Engine ς) : List (Registration Line) :=
  engine.active.flatMap (·.handle.released)

theorem released_eq (rules : List ActiveRule) (engine : Engine ς) :
    rules.foldl (fun engine rule => engine.detach rule.handle.released) engine =
      engine.detach (rules.flatMap (·.handle.released)) := by
  induction rules generalizing engine with
  | nil => rfl
  | cons rule rest ih =>
    rw [List.foldl_cons, ih, List.flatMap_cons]
    simp only [Engine.detach, Network.detach, List.foldl_append]

/-- A stop takes all registrations back, and the tallies away. -/
theorem stop_eq (running : engine.running = true) : engine.stop =
    (({ engine.detach engine.registrations with
        active := []
        running := false
        logs := engine.logs.map fun shelf =>
          engine.active.foldl (fun shelf (rule : ActiveRule) => shelf.remove rule.key) shelf }).alter
      fun plant => { plant with tallies := [] }).setMessage
        (stoppedMessage engine.active.length) := by
  unfold Engine.stop
  rw [if_pos running]
  dsimp only
  rw [released_eq]
  rfl

theorem stop_idle (idle : engine.running = false) : engine.stop = engine := by
  rw [Engine.stop, if_neg (Bool.eq_false_iff.mp idle)]

namespace Crewed

variable {right : Reckoning ς} {base : Nat} {crew : Crew} {past es more : List (Event Line Json)}

/-- Another ledger is opened: what has happened is past. -/
theorem reopen (crewed : engine.Crewed sink right base crew past es) {right' : Reckoning ς}
    (holds : right' crew [] engine.sight) : engine.Crewed sink right' base crew (past ++ es) [] :=
  ⟨crewed.same_sink, crewed.staffed.reopen holds, crewed.mans⟩

theorem vacant (crewed : engine.Crewed sink right base [] past es) :
    engine.Crewed sink right engine.network.subscriptions.length [] past es :=
  ⟨crewed.same_sink, crewed.staffed.vacant, crewed.mans⟩

/-- At every moment of a visit, the ledger is right. -/
theorem visiting (crewed : engine.Crewed sink right base crew past es)
    (ledger : Ledger sink base right) {network : PlantNetwork ς}
    {stack : List (Frame Line Json Entry (Plant ς))}
    (visiting : engine.Visiting more network stack) :
    Staffed sink right base crew past (es ++ more) network stack := by
  cases visiting with
  | performing guest run => exact (crewed.staffed.admits guest).run ledger run
  | subscribing discreet guest run =>
    rw [← List.singleton_append, ← List.append_assoc]
    exact (crewed.staffed.welcomes ledger discreet guest).run ledger run

/-- Visits leave the rules at work alone. -/
theorem visit (crewed : engine.Crewed sink right base crew past es)
    (books : Bookkeeping sink changes base right) (visit : Visit changes engine more after) :
    after.Crewed sink right base crew past (es ++ more) ∧ after.active = engine.active ∧
      after.running = engine.running := by
  cases visit with
  | performed guest ends =>
    obtain ⟨network, settles, rfl⟩ := Option.map_eq_some_iff.mp ends
    have staffed := crewed.visiting books.toLedger (.performing guest (run_of_settle settles))
    exact ⟨⟨crewed.same_sink, staffed, crewed.mans⟩, rfl, rfl⟩
  | subscribed discreet guest ends =>
    obtain ⟨network, rfl, run⟩ := run_of_subscribe ends
    obtain ⟨later, events, run'⟩ := opening_of_run run
    rw [events]
    have staffed := crewed.visiting books.toLedger (.subscribing discreet guest run')
    exact ⟨⟨crewed.same_sink, staffed, crewed.mans⟩, rfl, rfl⟩
  | detached registrations =>
    exact ⟨⟨crewed.same_sink, crewed.staffed.detach books.toLedger registrations, crewed.mans⟩, rfl, rfl⟩
  | @adjusted remembered may =>
    have holds : right crew es
        (engine.alter fun plant => { plant with sink := remembered }).sight :=
      books.adjusts may crewed.staffed.holds
    have alike : engine.network.Alike
        (engine.alter fun plant => { plant with sink := remembered }).network := ⟨rfl, rfl⟩
    rw [List.append_nil]
    exact ⟨⟨crewed.same_sink, crewed.staffed.alike alike holds, crewed.mans⟩, rfl, rfl⟩

theorem visits (crewed : engine.Crewed sink right base crew past es)
    (books : Bookkeeping sink changes base right) (visits : Visits changes engine more after) :
    after.Crewed sink right base crew past (es ++ more) ∧ after.active = engine.active ∧
      after.running = engine.running := by
  induction visits with
  | none => exact ⟨by rwa [List.append_nil], rfl, rfl⟩
  | more _ last ih =>
    obtain ⟨crewed', active, running⟩ := ih
    obtain ⟨crewed'', active', running'⟩ := crewed'.visit books last
    rw [← List.append_assoc]
    exact ⟨crewed'', active'.trans active, running'.trans running⟩

end Crewed

/-- The rules that are listed are those at work, and there are none unless the engine is running. -/
structure Manned (sink : Sink ς) (base : Nat) (crew : Crew) (past : List (Event Line Json))
    (engine : Engine ς) : Prop extends engine.Crewed sink Numbered base crew past [] where
  active : engine.active = crew.map Prod.snd
  idle : engine.running = false → crew = []

namespace Manned

variable {base : Nat} {crew : Crew} {past : List (Event Line Json)}

theorem tallies (manned : engine.Manned sink base crew past) :
    engine.plant.tallies.length = crew.length :=
  manned.staffed.holds

theorem at_rest (manned : engine.Manned sink base crew past) (idle : engine.running = false) :
    engine.Manned sink engine.network.subscriptions.length [] past ∧ engine.active = [] ∧
      engine.plant.tallies = [] := by
  obtain rfl := manned.idle idle
  exact ⟨⟨manned.toCrewed.vacant, manned.active, fun _ => rfl⟩, manned.active,
    List.eq_nil_of_length_eq_zero manned.tallies⟩

theorem new (remembered : ς) (logs : Option RuleLog.Site) :
    (Engine.new sink remembered logs).Manned sink 0 [] [] := by
  have run : Run (Network.start (Plant.start remembered) : PlantNetwork ς) [.script .done] []
      (Network.start (Plant.start remembered)) [] := .step rfl (.still _ _)
  have orderly : Orderly Plant.holdings Entry.kept?
      (Network.start (Plant.start remembered) : PlantNetwork ς) [] :=
    ⟨List.forall_mem_nil _, List.forall_mem_nil _, (fun _ there => by cases there),
      List.forall_mem_nil _⟩
  have staffed : Staffed sink Numbered 0 [] [] []
      (Network.start (Plant.start remembered) : PlantNetwork ς) [] :=
    ⟨(Sound.start _ _).run run, orderly, Nat.le_refl 0, fun _ _ _ here => by simp at here,
      fun _ _ there => by simp [Network.start] at there, rfl⟩
  exact ⟨⟨rfl, staffed, fun _ _ member => by cases member⟩, rfl, fun _ => rfl⟩

/-- Registrations that have been taken back are those of the rules at work, and no others. -/
theorem unlisted (manned : engine.Manned sink base crew past) {i : Nat} (small : i < crew.length)
    (key : Line) (leaf : Nat) :
    (base + i, leaf) ∉ ((engine.network.detach engine.registrations).subject key).listeners := by
  obtain ⟨⟨drive, rule⟩, here⟩ : ∃ hand, crew[i]? = some hand :=
    ⟨_, List.getElem?_eq_getElem small⟩
  rw [subject_detach]
  intro listed
  obtain ⟨before, unregistered⟩ := List.mem_filter.mp listed
  refine of_decide_eq_true unregistered (List.mem_flatMap.mpr ⟨rule, ?_, ?_⟩)
  · rw [manned.active]
    exact List.mem_map.mpr ⟨_, List.mem_of_getElem? here, rfl⟩
  · exact manned.staffed.registered here before

/-- A stopped rule is attached nowhere. -/
theorem stop (manned : engine.Manned sink base crew past) :
    ∃ past', engine.stop.Manned sink engine.network.subscriptions.length [] past' := by
  cases running : engine.running with
  | false =>
    rw [stop_idle running]
    exact ⟨past, (manned.at_rest running).1⟩
  | true =>
    have detached := manned.staffed.detach (numbered sink base).toLedger engine.registrations
    have dismissed := detached.dismissed fun _ small => manned.unlisted small
    have alike : (engine.network.detach engine.registrations).Alike engine.stop.network := by
      rw [stop_eq running]
      exact ⟨rfl, rfl⟩
    have tallies : engine.stop.plant.tallies = [] := by
      rw [stop_eq running]
      rfl
    have holds (es) : Numbered [] es engine.stop.sight := congrArg List.length tallies
    have staffed : Staffed sink Numbered engine.network.subscriptions.length []
        (past ++ engine.registrations.map .detached) [] engine.stop.network [] := by
      rw [← engine.network.detach_subscriptions engine.registrations]
      exact (dismissed.alike alike (holds _)).reopen (holds _)
    refine ⟨_, ⟨⟨?_, staffed, fun _ _ member => by cases member⟩, ?_, fun _ => rfl⟩⟩
    · rw [stop_eq running]
      exact manned.same_sink
    · rw [stop_eq running]
      rfl

theorem renewed (manned : engine.Manned sink base crew past) (idle : engine.running = false)
    (logs : Option RuleLog.Site) :
    (engine.renewed logs).Manned sink engine.network.subscriptions.length [] past := by
  obtain ⟨manned, _, _⟩ := manned.at_rest idle
  have alike : engine.network.Alike (engine.renewed logs).network := ⟨rfl, rfl⟩
  have holds : Numbered [] [] (engine.renewed logs).sight := rfl
  exact ⟨⟨manned.same_sink, manned.staffed.alike alike holds, fun _ _ member => by cases member⟩,
    rfl, fun _ => rfl⟩

end Manned

theorem Manned.start {base : Nat} {crew : Crew} {past : List (Event Line Json)}
    (manned : engine.Manned sink base crew past) {config : EngineConfig} {budget : Nat}
    {result : Except RuleError StartReport}
    (ends : engine.start budget config = some (after, result)) :
    ∃ base crew past, after.Manned sink base crew past := by
  cases running : engine.running with
  | true =>
    rw [start_running running] at ends
    obtain ⟨rfl, _⟩ := Prod.mk.inj (Option.some.inj ends)
    exact ⟨base, crew, past, manned⟩
  | false =>
    obtain ⟨manned, none_active, _⟩ := manned.at_rest running
    obtain ⟨crew', crewed, _, _, listed⟩ := manned.toCrewed.start (numbered sink _) running ends
    refine ⟨_, crew', _, crewed.reopen crewed.staffed.holds, ?_, ?_⟩
    · rcases listed with ⟨_, active⟩ | ⟨_, _, active, rfl⟩
      · exact active
      · exact active.trans none_active
    · rcases listed with ⟨works, _⟩ | ⟨_, _, _, rfl⟩
      · exact fun idle => nomatch works.symm.trans idle
      · exact fun _ => rfl

/-- To offer a delivery is nobody's business but the sink's. -/
theorem Manned.offer {base : Nat} {crew : Crew} {past : List (Event Line Json)}
    (manned : engine.Manned sink base crew past) {budget : Nat} {delivery : Delivery}
    {answer : Answer} (ends : engine.offer budget delivery = some (after, answer)) :
    ∃ past', after.Manned sink base crew past' := by
  obtain ⟨_, performs, same⟩ := Option.map_eq_some_iff.mp ends
  obtain ⟨rfl, _⟩ := Prod.mk.inj same
  obtain ⟨network, settles, rfl⟩ := Option.map_eq_some_iff.mp performs
  have brisk : (PlantScript.offer engine.sink delivery fun _ => .done).Brisk Plant.holdings
      Entry.kept? := PlantScript.brisk_offer _ _ fun _ => .done
  have tallies : ((PlantScript.offer engine.sink delivery fun _ => .done).outcome
      engine.plant).tallies = engine.plant.tallies :=
    (PlantScript.outcome_offer _ _ (fun _ _ => rfl) (fun _ _ _ => rfl) _).2
  have begins := manned.staffed.begins brisk ((congrArg List.length tallies).trans manned.tallies)
  have staffed := begins.run (numbered sink base).toLedger (run_of_settle settles)
  exact ⟨_, ⟨⟨manned.same_sink, staffed.reopen staffed.holds, manned.mans⟩, manned.active,
    manned.idle⟩⟩

theorem Reachable.manned (reachable : Reachable sink engine) :
    ∃ base crew past, engine.Manned sink base crew past := by
  induction reachable with
  | new remembered logs => exact ⟨0, [], [], .new remembered logs⟩
  | visit _ visit ih =>
    obtain ⟨base, crew, past, manned⟩ := ih
    obtain ⟨crewed, active, running⟩ := manned.toCrewed.visit (numbered sink base) visit
    exact ⟨base, crew, _, crewed.reopen crewed.staffed.holds, active.trans manned.active,
      fun idle => manned.idle (running.symm.trans idle)⟩
  | offer _ ends ih =>
    obtain ⟨base, crew, past, manned⟩ := ih
    obtain ⟨past', manned'⟩ := manned.offer ends
    exact ⟨base, crew, past', manned'⟩
  | start _ ends ih =>
    obtain ⟨base, crew, past, manned⟩ := ih
    exact manned.start ends
  | stop _ ih =>
    obtain ⟨base, crew, past, manned⟩ := ih
    obtain ⟨past', manned'⟩ := manned.stop
    exact ⟨_, [], past', manned'⟩
  | renewed _ idle logs ih =>
    obtain ⟨base, crew, past, manned⟩ := ih
    exact ⟨_, [], past, manned.renewed idle logs⟩

/-- Who watches an expression is a guest. -/
theorem Reachable.watch (reachable : Reachable sink engine) {budget : Nat} {watcher text : String}
    {handle : Option (Handle Line)}
    (ends : engine.watch budget watcher text = some (after, handle)) : Reachable sink after := by
  have touched := reachable.visit (.touched (Input.paths text))
  unfold Engine.watch at ends
  dsimp only at ends
  split at ends
  · obtain ⟨rfl, _⟩ := Prod.mk.inj (Option.some.inj ends)
    exact touched
  · rename_i stream evaluates
    obtain ⟨⟨_, _⟩, subscribes, same⟩ := Option.map_eq_some_iff.mp ends
    obtain ⟨rfl, _⟩ := Prod.mk.inj same
    exact touched.visit (.subscribed (Input.discreet_evaluate evaluates)
      (fun _ => .heard .done) subscribes)

/-- Who follows a path is a guest. -/
theorem Reachable.tail (reachable : Reachable sink engine) {budget : Nat} {watcher path : String}
    {handle : Handle Line} (ends : engine.tail budget watcher path = some (after, handle)) :
    Reachable sink after := by
  have discreet : (.subject (engine.plant.bus.line path) : BusStream Json).Discreet Entry.kept? :=
    trivial
  exact (reachable.visit (.touched [path])).visit
    (.subscribed discreet (fun _ => .heard .done) ends)

theorem Reachable.starts (reachable : Reachable sink engine) {config : EngineConfig}
    (starts : engine.Starts config after) : Reachable sink after := by
  obtain ⟨least, result, ends⟩ := starts
  exact reachable.start (ends least le_rfl)

theorem Reachable.publishes (reachable : Reachable sink engine) {values : List (String × Json)}
    (publishes : engine.Publishes values after) : Reachable sink after := by
  induction values generalizing engine with
  | nil =>
    obtain rfl := publishes.unique (.nil engine)
    exact reachable
  | cons first rest ih =>
    obtain ⟨path, value⟩ := first
    obtain ⟨budget, middle, audience, published, later⟩ := publishes_cons_iff.mp publishes
    exact ih (reachable.visit (.published published)) later

theorem idle_of_start {budget : Nat} {config : EngineConfig} {report : StartReport}
    (ends : engine.start budget config = some (after, .ok report)) : engine.running = false := by
  cases running : engine.running with
  | false => rfl
  | true =>
    rw [start_running running] at ends
    exact nomatch (Prod.mk.inj (Option.some.inj ends)).2

/-- With a start that succeeds the books are opened for the rules that are listed then. -/
theorem Reachable.opens (reachable : Reachable sink engine) {right : Reckoning ς}
    (books : Bookkeeping sink changes engine.network.subscriptions.length right)
    (holds : engine.plant.tallies = [] → right [] [] engine.sight) {budget : Nat}
    {config : EngineConfig} {report : StartReport}
    (ends : engine.start budget config = some (after, .ok report)) :
    ∃ crew past, after.Crewed sink right engine.network.subscriptions.length crew past
        (engine.startEvents budget config) ∧ after.running = true ∧
      after.active = crew.map Prod.snd ∧
      engine.network.subscriptions.length + crew.length = after.network.subscriptions.length ∧
      engine.network.KeepsListeners engine.network.subscriptions.length after.network := by
  obtain ⟨base, crew, past, manned⟩ := reachable.manned
  have idle := idle_of_start ends
  obtain ⟨rested, _, none_tallied⟩ := manned.at_rest idle
  obtain ⟨crew', crewed, full, stay, ⟨works, active⟩ | ⟨_, failed, _⟩⟩ :=
    (rested.toCrewed.reopen (holds none_tallied)).start books idle ends
  · exact ⟨crew', _, crewed, works, active, full, stay⟩
  · cases failed

end Engine

end Switchboard
