import Mathlib.Data.List.Forall2
import Switchboard.Proofs.Engine.Circuit

/-!
# Starting an engine

Most of what an engine does when it starts goes unnoticed by listeners: it
writes to the journal, shows messages, takes logs into use and makes paths
known. Besides that it subscribes to the actions of circuits. Whatever both
of these keep is kept by a start.
-/
namespace Switchboard

open Event Network

namespace RuleLog.Shelf

theorem get_site (shelf : Shelf) (key : String) : (shelf.get key).1.site = shelf.site := by
  unfold get
  dsimp only
  split <;> rfl

/-- Taking a log into use is not seen by those who read neither notes nor that logs begin. -/
theorem get_unread {δ : Type} {read : Entry → Option δ} (notes : ∀ note, read (.note note) = none)
    (begins : ∀ directory, read (.ruleLog directory) = none) (shelf : Shelf) (key : String) :
    ∀ entry ∈ (shelf.get key).2.entries, read entry = none := by
  unfold get
  dsimp only
  split
  · exact List.forall_mem_nil _
  · refine List.forall_mem_singleton.mpr ?_
    unfold Site.opening
    split
    · exact begins _
    · exact notes _

end RuleLog.Shelf

namespace Engine

variable {ς : Type} {engine middle after : Engine ς}

/-- What an operation leaves alone of which no listener takes notice. -/
structure Aside (engine after : Engine ς) : Prop where
  sink : after.sink = engine.sink
  alike : engine.network.Alike after.network
  generation : after.plant.bus.generation = engine.plant.bus.generation
  remembered : after.plant.sink = engine.plant.sink

/-- What leaves the tallies alone besides. -/
structure Still (engine after : Engine ς) : Prop extends engine.Aside after where
  tallies : after.plant.tallies = engine.plant.tallies

theorem Aside.trans (first : engine.Aside middle) (second : middle.Aside after) :
    engine.Aside after :=
  ⟨second.sink.trans first.sink,
    ⟨second.alike.subjects.trans first.alike.subjects,
      second.alike.subscriptions.trans first.alike.subscriptions⟩,
    second.generation.trans first.generation, second.remembered.trans first.remembered⟩

namespace Still

theorem refl (engine : Engine ς) : engine.Still engine := ⟨⟨rfl, ⟨rfl, rfl⟩, rfl, rfl⟩, rfl⟩

theorem trans (first : engine.Still middle) (second : middle.Still after) : engine.Still after :=
  ⟨first.toAside.trans second.toAside, second.tallies.trans first.tallies⟩

theorem write (engine : Engine ς) (entries : List Entry) : engine.Still (engine.write entries) :=
  ⟨⟨rfl, ⟨rfl, rfl⟩, rfl, rfl⟩, rfl⟩

theorem note (engine : Engine ς) (level : Level) (text : String) :
    engine.Still (engine.note level text) := .write engine _

theorem alter (engine : Engine ς) {f : Plant ς → Plant ς}
    (generation : (f engine.plant).bus.generation = engine.plant.bus.generation)
    (remembered : (f engine.plant).sink = engine.plant.sink)
    (tallies : (f engine.plant).tallies = engine.plant.tallies) : engine.Still (engine.alter f) :=
  ⟨⟨rfl, ⟨rfl, rfl⟩, generation, remembered⟩, tallies⟩

theorem setMessage (engine : Engine ς) (message : String) :
    engine.Still (engine.setMessage message) :=
  (note engine _ _).trans (alter _ rfl rfl rfl)

theorem noteDropped (engine : Engine ς) (context : String) (dropped : DroppedRule) :
    engine.Still (engine.noteDropped context dropped) :=
  (note engine _ _).trans (alter _ rfl rfl rfl)

theorem touch (engine : Engine ς) (paths : List String) : engine.Still (engine.touch paths) :=
  alter engine (touchAll_generation _ paths) rfl rfl

theorem takeLog (engine : Engine ς) (key : String) : engine.Still (engine.takeLog key).1 := by
  unfold Engine.takeLog
  split
  · exact refl engine
  · exact ⟨⟨rfl, ⟨rfl, rfl⟩, rfl, rfl⟩, rfl⟩

end Still

/-- The drive of a compiled rule that is activated now. -/
def driveOf (engine : Engine ς) (compiled : CompiledRule) : Drive :=
  describe compiled engine.plant.tallies.length
    ((engine.takeLog compiled.key).2.bind (·.open?))

/-- The engine right before it subscribes to the actions of a compiled rule. -/
def prepared (engine : Engine ς) (compiled : CompiledRule) : Engine ς :=
  (engine.takeLog compiled.key).1.alter fun plant =>
    { plant with tallies := plant.tallies ++ [.zero] }

end Engine

/-- The active rule that a compiled rule becomes. -/
def CompiledRule.active (compiled : CompiledRule) (handle : Handle Line) : ActiveRule where
  key := compiled.key
  description := compiled.description
  input := compiled.input
  output := compiled.output
  mode := compiled.mode
  handle := handle

namespace Engine

variable {ς : Type}

/-- What a listener notices of the activation of a compiled rule is a subscription. -/
theorem activate_eq (budget : Nat) (compiled : CompiledRule) (engine : Engine ς) :
    engine.activate budget compiled =
      ((engine.prepared compiled).subscribe budget compiled.actions
        ((engine.driveOf compiled).fire engine.sink)).map fun subscribed =>
          (subscribed.1, compiled.active subscribed.2) := by
  unfold activate prepared driveOf
  rcases engine.takeLog compiled.key with ⟨logging, place⟩
  rfl

/-- A compiled rule is activated with the handle of its subscription. -/
theorem activate_eq_some {engine after : Engine ς} {budget : Nat} {compiled : CompiledRule}
    {active : ActiveRule} : engine.activate budget compiled = some (after, active) ↔
      ∃ handle, active = compiled.active handle ∧
        (engine.prepared compiled).subscribe budget compiled.actions
          ((engine.driveOf compiled).fire engine.sink) = some (after, handle) := by
  rw [activate_eq, Option.map_eq_some_iff]
  constructor
  · rintro ⟨⟨_, handle⟩, subscribes, same⟩
    obtain ⟨rfl, rfl⟩ := Prod.mk.inj same
    exact ⟨handle, rfl, subscribes⟩
  · rintro ⟨handle, rfl, subscribes⟩
    exact ⟨_, subscribes, rfl⟩

/-- What a rule is about to start with: it has a tally, and its drive knows where that is. -/
structure Readies (engine ready : Engine ς) (drive : Drive) (post : Post) : Prop where
  aside : engine.Aside ready
  tallies : ready.plant.tallies = engine.plant.tallies ++ [.zero]
  serves : drive.Serves post engine.plant.tallies.length

theorem readies_prepared (engine : Engine ς) {compiled : CompiledRule} {post : Post}
    (fills : compiled.Fills post) :
    engine.Readies (engine.prepared compiled) (engine.driveOf compiled) post where
  aside := (Still.takeLog engine compiled.key).toAside.trans ⟨rfl, ⟨rfl, rfl⟩, rfl, rfl⟩
  tallies := congrArg (· ++ [Tally.zero]) (Still.takeLog engine compiled.key).tallies
  serves := ⟨rfl, fills.term, fills.mode⟩

theorem Readies.after {engine middle ready : Engine ς} {drive : Drive} {post : Post}
    (readies : middle.Readies ready drive post) (still : engine.Still middle) :
    engine.Readies ready drive post where
  aside := still.toAside.trans readies.aside
  tallies := by rw [readies.tallies, still.tallies]
  serves := by
    rw [← still.tallies]
    exact readies.serves

/-- What a rule is enabled in: the notes are made, and its paths are known. -/
def noted (rule : RuleConfig) (engine : Engine ς) : Engine ς :=
  ((engine.note .debug ("enabling rule " ++ rule.displayName)).write
    (rule.compileNotes.map .note)).touch rule.compilePaths

theorem Still.noted (engine : Engine ς) (rule : RuleConfig) : engine.Still (engine.noted rule) :=
  ((Still.note engine _ _).trans (.write _ _)).trans (.touch _ _)

/-- A candidate is dropped with the reason why it does not compile, or it is activated. -/
theorem enable_eq_some {engine after : Engine ς} {budget index : Nat} {config : EngineConfig}
    {rule : RuleConfig} {outcome : Except DroppedRule ActiveRule} :
    engine.enable budget config index rule = some (after, outcome) ↔
      (∃ reason, config.compile engine.plant.bus index rule = .error reason ∧
        after = (engine.noted rule).noteDropped "ignoring badly formed rule"
          ⟨rule.displayName, reason⟩ ∧
        outcome = .error ⟨rule.displayName, reason⟩) ∨
      ∃ compiled active, config.compile engine.plant.bus index rule = .ok compiled ∧
        outcome = .ok active ∧
        (engine.noted rule).activate budget compiled = some (after, active) := by
  unfold enable
  constructor
  · intro ends
    cases compiles : config.compile engine.plant.bus index rule with
    | error reason =>
      simp only [compiles] at ends
      obtain ⟨rfl, rfl⟩ := Prod.mk.inj (Option.some.inj ends)
      exact .inl ⟨reason, rfl, rfl, rfl⟩
    | ok compiled =>
      simp only [compiles] at ends
      obtain ⟨⟨_, active⟩, activates, same⟩ := Option.map_eq_some_iff.mp ends
      obtain ⟨rfl, rfl⟩ := Prod.mk.inj same
      exact .inr ⟨compiled, active, rfl, rfl, activates⟩
  · rintro (⟨reason, compiles, rfl, rfl⟩ | ⟨compiled, active, compiles, rfl, activates⟩)
    · simp only [compiles]
      rfl
    · simp only [compiles]
      exact Option.map_eq_some_iff.mpr ⟨_, activates, rfl⟩

/-- Candidates are enabled in order. -/
theorem enableAll_cons {engine after : Engine ς} {budget index : Nat} {config : EngineConfig}
    {rule : RuleConfig} {rest : List (RuleConfig × Nat)}
    {outcomes : List (Except DroppedRule ActiveRule)} :
    enableAll budget config ((rule, index) :: rest) engine = some (after, outcomes) ↔
      ∃ middle outcome later, outcomes = outcome :: later ∧
        engine.enable budget config index rule = some (middle, outcome) ∧
        enableAll budget config rest middle = some (after, later) := by
  rw [enableAll]
  constructor
  · intro ends
    cases enabled : engine.enable budget config index rule with
    | none =>
      rw [enabled] at ends
      exact nomatch ends
    | some first =>
      obtain ⟨middle, outcome⟩ := first
      rw [enabled] at ends
      obtain ⟨⟨_, later⟩, rest_ends, same⟩ := Option.map_eq_some_iff.mp ends
      obtain ⟨rfl, rfl⟩ := Prod.mk.inj same
      exact ⟨middle, outcome, later, rfl, rfl, rest_ends⟩
  · rintro ⟨middle, outcome, later, rfl, enabled, rest_ends⟩
    rw [enabled]
    exact Option.map_eq_some_iff.mpr ⟨_, rest_ends, rfl⟩

/-- What happens when a rule is enabled. -/
def enableEvents (budget : Nat) (config : EngineConfig) (index : Nat) (rule : RuleConfig)
    (engine : Engine ς) : List (Event Line Json) :=
  match config.compile engine.plant.bus index rule with
  | .error _ => []
  | .ok compiled =>
    let ready := engine.noted rule
    (ready.prepared compiled).subscribeEvents budget compiled.actions
      ((ready.driveOf compiled).fire engine.sink)

/-- Enabling a rule subscribes to the actions of its post, if it has one. -/
theorem enable_post (config : EngineConfig) (index : Nat) (rule : RuleConfig)
    {engine : Engine ς} (first : engine.plant.bus.generation = 0) :
    (config.post? rule = none ∧ ∃ after dropped, engine.Still after ∧ ∀ budget,
        engine.enable budget config index rule = some (after, .error dropped) ∧
          engine.enableEvents budget config index rule = []) ∨
      ∃ (post : Post) (ready : Engine ς) (drive : Drive), ∃ active : Handle Line → ActiveRule,
        config.post? rule = some post ∧ engine.Readies ready drive post ∧
        (∀ handle, (active handle).Fills post) ∧ ∀ budget,
          engine.enable budget config index rule =
              (ready.subscribe budget post.circuit.actions (drive.fire engine.sink)).map
                (fun subscribed => (subscribed.1, .ok (active subscribed.2))) ∧
            engine.enableEvents budget config index rule =
              ready.subscribeEvents budget post.circuit.actions (drive.fire engine.sink) := by
  have still := Still.noted engine rule
  have here : ((engine.note .debug ("enabling rule " ++ rule.displayName)).write
    (rule.compileNotes.map .note)).touch rule.compilePaths = engine.noted rule := rfl
  rcases config.compile_post first index rule with ⟨nothing, reason, failed⟩ |
    ⟨post, compiled, something, made, fills⟩
  · have dropped := Still.noteDropped (engine.noted rule) "ignoring badly formed rule"
      ⟨rule.displayName, reason⟩
    refine .inl ⟨nothing, _, ⟨rule.displayName, reason⟩, still.trans dropped, fun budget => ?_⟩
    unfold enable enableEvents
    simp only [failed, here, and_self]
  · refine .inr ⟨post, (engine.noted rule).prepared compiled,
      (engine.noted rule).driveOf compiled, compiled.active, something,
      (readies_prepared _ fills).after still,
      fun _ => ⟨⟨fills.input, fills.output⟩, fills.description⟩, fun budget => ?_⟩
    unfold enable enableEvents
    simp only [made, here, activate_eq, fills.actions, still.sink, Option.map_map, and_true]
    rfl

/-- The engine when the rules that cannot be used have been noted. -/
def sorted (config : EngineConfig) (engine : Engine ς) : Engine ς :=
  config.incomplete.foldl (fun engine dropped => engine.noteDropped "Dropping rule" dropped) engine

/-- The engine when it begins to enable its rules. -/
def operating (config : EngineConfig) (engine : Engine ς) : Engine ς :=
  (engine.sorted config).setMessage (operatingMessage config.usableCount)

/-- The engine when there was no rule that can be used. -/
def failed (config : EngineConfig) (engine : Engine ς) : Engine ς :=
  ((engine.sorted config).note .error RuleError.noRules.message).alter
    (.setError RuleError.noRules.message)

end Engine

/-- What is reported when the candidates have been enabled. -/
def EngineConfig.report (config : EngineConfig)
    (outcomes : List (Except DroppedRule ActiveRule)) : StartReport :=
  ⟨(Engine.activeOf outcomes).map (·.description),
    config.incomplete ++ Engine.droppedOf outcomes, config.skipped⟩

namespace Engine

variable {ς : Type}

/-- The engine when its rules have been enabled. -/
def atWork (config : EngineConfig) (outcomes : List (Except DroppedRule ActiveRule))
    (engine : Engine ς) : Engine ς :=
  { engine.note .info (startedMessage (config.report outcomes)) with
    active := activeOf outcomes, running := true }

/-- An engine that is at work cannot be started, and is not changed. -/
theorem start_running {engine : Engine ς} (running : engine.running = true) (budget : Nat)
    (config : EngineConfig) :
    engine.start budget config = some (engine, .error .alreadyRunning) := by
  rw [Engine.start, if_pos running]

theorem start_unusable {engine : Engine ς} (idle : engine.running = false) {config : EngineConfig}
    (unusable : config.usableCount = 0) (budget : Nat) :
    engine.start budget config = some (engine.failed config, .error .noRules) := by
  unfold start
  rw [idle, if_neg Bool.false_ne_true, if_pos unusable]
  rfl

theorem start_usable {engine : Engine ς} (idle : engine.running = false) {config : EngineConfig}
    (usable : config.usableCount ≠ 0) (budget : Nat) :
    engine.start budget config =
      (enableAll budget config config.candidates (engine.operating config)).map fun done =>
        (done.1.atWork config done.2, .ok (config.report done.2)) := by
  unfold start
  rw [idle, if_neg Bool.false_ne_true, if_neg usable]
  rfl

/-- A start fails where no rule can be used, and otherwise enables the candidates. -/
theorem start_eq_some {engine after : Engine ς} (idle : engine.running = false) {budget : Nat}
    {config : EngineConfig} {result : Except RuleError StartReport} :
    engine.start budget config = some (after, result) ↔
      (config.usableCount = 0 ∧ after = engine.failed config ∧ result = .error .noRules) ∨
      config.usableCount ≠ 0 ∧ ∃ middle outcomes, after = middle.atWork config outcomes ∧
        result = .ok (config.report outcomes) ∧
        enableAll budget config config.candidates (engine.operating config) =
          some (middle, outcomes) := by
  by_cases unusable : config.usableCount = 0
  · rw [start_unusable idle unusable]
    simp [unusable, eq_comm]
  · rw [start_usable idle unusable, Option.map_eq_some_iff]
    constructor
    · rintro ⟨⟨middle, outcomes⟩, enables, same⟩
      obtain ⟨rfl, rfl⟩ := Prod.mk.inj same
      exact .inr ⟨unusable, middle, outcomes, rfl, rfl, enables⟩
    · rintro (⟨nothing, _⟩ | ⟨_, middle, outcomes, rfl, rfl, enables⟩)
      · exact absurd nothing unusable
      · exact ⟨_, enables, rfl⟩

theorem Still.sorted (engine : Engine ς) (config : EngineConfig) :
    engine.Still (engine.sorted config) := by
  unfold Engine.sorted
  generalize config.incomplete = dropped
  induction dropped generalizing engine with
  | nil => exact .refl engine
  | cons one rest ih => exact (Still.noteDropped engine _ one).trans (ih _)

theorem Still.operating (engine : Engine ς) (config : EngineConfig) :
    engine.Still (engine.operating config) :=
  (Still.sorted engine config).trans (.setMessage _ _)

theorem Still.failed (engine : Engine ς) (config : EngineConfig) :
    engine.Still (engine.failed config) :=
  (Still.sorted engine config).trans ((Still.note _ _ _).trans (.alter _ rfl rfl rfl))

theorem Still.atWork (engine : Engine ς) (config : EngineConfig)
    (outcomes : List (Except DroppedRule ActiveRule)) : engine.Still (engine.atWork config outcomes) :=
  ⟨⟨rfl, ⟨rfl, rfl⟩, rfl, rfl⟩, rfl⟩

theorem failed_active (engine : Engine ς) (config : EngineConfig) :
    (engine.failed config).active = engine.active := by
  show (engine.sorted config).active = engine.active
  unfold Engine.sorted
  generalize config.incomplete = dropped
  induction dropped generalizing engine with
  | nil => rfl
  | cons one rest ih => exact ih _

/-- Where no rule is usable, there are no candidates. -/
theorem candidates_of_unusable {config : EngineConfig} (unusable : config.usableCount = 0) :
    config.candidates = [] := by
  have none_usable : ∀ rule ∈ config.rules, rule.isUsable = false := by
    have nothing := List.filter_eq_nil_iff.mp (List.eq_nil_of_length_eq_zero unusable)
    intro rule member
    simpa using nothing rule member
  refine List.filter_eq_nil_iff.mpr ?_
  rintro ⟨rule, index⟩ member standing
  have usable := none_usable rule (List.fst_mem_of_mem_zipIdx member)
  have candidate : rule.standing = .candidate := by simpa using standing
  rw [RuleConfig.isUsable, candidate] at usable
  exact nomatch usable

theorem circuits_of_unusable {config : EngineConfig} (unusable : config.usableCount = 0) :
    config.circuits = [] := by
  rw [EngineConfig.circuits, candidates_of_unusable unusable]
  rfl

theorem posts_of_unusable {config : EngineConfig} (unusable : config.usableCount = 0) :
    config.posts = [] := by
  rw [EngineConfig.posts, candidates_of_unusable unusable]
  rfl

/-- An engine that has been started is running, unless it has no rules at all. -/
theorem running_of_start {budget : Nat} {config : EngineConfig} {engine started : Engine ς}
    {result : Except RuleError StartReport} (none_active : engine.active = [])
    (idle : engine.running = false)
    (starts : engine.start budget config = some (started, result)) :
    started.running = true ∨ started.active = [] := by
  rcases (start_eq_some idle).mp starts with ⟨_, rfl, _⟩ | ⟨_, middle, outcomes, rfl, _, _⟩
  · exact .inr ((failed_active engine config).trans none_active)
  · exact .inl rfl

/-- With every budget that is large enough, the configured rules are started. -/
def Starts (engine : Engine ς) (config : EngineConfig) (started : Engine ς) : Prop :=
  ∃ least report, ∀ budget, least ≤ budget → engine.start budget config = some (started, report)

theorem Starts.unique {engine started started' : Engine ς} {config : EngineConfig}
    (starts : engine.Starts config started) (starts' : engine.Starts config started') :
    started = started' := by
  obtain ⟨least, report, ends⟩ := starts
  obtain ⟨least', report', ends'⟩ := starts'
  have same := (ends (max least least') (by omega)).symm.trans (ends' _ (by omega))
  injection same with same
  injection same

def enableAllEvents (budget : Nat) (config : EngineConfig) :
    List (RuleConfig × Nat) → Engine ς → List (Event Line Json)
  | [], _ => []
  | (rule, index) :: rest, engine =>
    engine.enableEvents budget config index rule ++
      match engine.enable budget config index rule with
      | some (after, _) => enableAllEvents budget config rest after
      | none => []

/-- What happens when the rules are started. -/
def startEvents (budget : Nat) (config : EngineConfig) (engine : Engine ς) :
    List (Event Line Json) :=
  if engine.running ∨ config.usableCount = 0 then []
  else enableAllEvents budget config config.candidates (engine.operating config)

section Enabling

variable (config : EngineConfig)
variable (Holds : Engine ς → List Post → List (Event Line Json) → Prop)
variable (first : ∀ {engine posts es}, Holds engine posts es → engine.plant.bus.generation = 0)
variable (still : ∀ {engine after posts es}, engine.Still after → Holds engine posts es →
  Holds after posts es)
variable (subscribes : ∀ {engine ready posts es} (post : Post) (drive : Drive),
  posts ++ [post] <+: config.posts → engine.Readies ready drive post → Holds engine posts es →
  ∃ least es' after handle, Holds after (posts ++ [post]) (es ++ es') ∧ ∀ budget, least ≤ budget →
    ready.subscribe budget post.circuit.actions (drive.fire engine.sink) = some (after, handle) ∧
      ready.subscribeEvents budget post.circuit.actions (drive.fire engine.sink) = es')

include first still subscribes in
theorem enableAll_fills (candidates : List (RuleConfig × Nat)) {engine : Engine ς}
    {posts : List Post} {es : List (Event Line Json)} (holds : Holds engine posts es)
    (left : posts ++ config.postsOf candidates = config.posts) :
    ∃ least es' after outcomes, Holds after config.posts (es ++ es') ∧
      List.Forall₂ ActiveRule.Fills (activeOf outcomes) (config.postsOf candidates) ∧
      ∀ budget, least ≤ budget →
        enableAll budget config candidates engine = some (after, outcomes) ∧
          enableAllEvents budget config candidates engine = es' := by
  induction candidates generalizing engine posts es with
  | nil =>
    obtain rfl : posts = config.posts := by simpa [EngineConfig.postsOf] using left
    exact ⟨0, [], engine, [], by rwa [List.append_nil], .nil, fun _ _ => ⟨rfl, rfl⟩⟩
  | cons candidate rest ih =>
    obtain ⟨rule, index⟩ := candidate
    rcases enable_post config index rule (first holds) with
      ⟨nothing, middle, dropped, unnoticed, ends⟩ |
      ⟨post, ready, drive, active, something, readies, fills, ends⟩
    · have later : config.postsOf ((rule, index) :: rest) = config.postsOf rest :=
        List.filterMap_cons_none nothing
      rw [later] at left ⊢
      obtain ⟨least, es', after, outcomes, holds', fills, ends'⟩ := ih (still unnoticed holds) left
      refine ⟨least, es', after, .error dropped :: outcomes, holds', fills, fun budget enough => ?_⟩
      obtain ⟨enabled, watched⟩ := ends budget
      obtain ⟨enabled', watched'⟩ := ends' budget enough
      simp only [enableAll, enableAllEvents, enabled, watched, enabled', watched', Option.map_some,
        List.nil_append, and_self]
    · have later : config.postsOf ((rule, index) :: rest) = post :: config.postsOf rest :=
        List.filterMap_cons_some something
      rw [later] at left ⊢
      have split : posts ++ [post] ++ config.postsOf rest = config.posts := by simpa using left
      obtain ⟨least, es', middle, handle, holds', ends'⟩ :=
        subscribes post drive ⟨_, split⟩ readies holds
      obtain ⟨least', es'', after, outcomes, holds'', fills', ends''⟩ := ih holds' split
      refine ⟨max least least', es' ++ es'', after, .ok (active handle) :: outcomes,
        by rwa [← List.append_assoc], .cons (fills handle) fills', fun budget enough => ?_⟩
      obtain ⟨enabled, watched⟩ := ends budget
      obtain ⟨subscribed, watched'⟩ := ends' budget (by omega)
      obtain ⟨enabled', watched''⟩ := ends'' budget (by omega)
      simp only [enableAll, enableAllEvents, enabled, watched, subscribed, watched', enabled',
        watched'', Option.map_some, and_self]

include first still subscribes in
/-- An engine that starts subscribes to the actions of the posts, one after the other. -/
theorem start_fills {engine : Engine ς} (idle : engine.running = false)
    (none_active : engine.active = []) (holds : Holds engine [] []) :
    ∃ least es started report, Holds started config.posts es ∧
      List.Forall₂ ActiveRule.Fills started.active config.posts ∧ ∀ budget, least ≤ budget →
        engine.start budget config = some (started, report) ∧ engine.startEvents budget config = es := by
  by_cases unusable : config.usableCount = 0
  · refine ⟨0, [], engine.failed config, .error .noRules, ?_, ?_, fun budget _ => ⟨?_, ?_⟩⟩
    · rw [posts_of_unusable unusable]
      exact still (Still.failed engine config) holds
    · rw [posts_of_unusable unusable, failed_active, none_active]
      exact .nil
    · exact start_unusable idle unusable budget
    · rw [startEvents, if_pos (.inr unusable)]
  · obtain ⟨least, es, after, outcomes, holds', fills, ends⟩ :=
      enableAll_fills config Holds first still subscribes config.candidates
        (still (Still.operating engine config) holds) (List.nil_append _)
    refine ⟨least, es, after.atWork config outcomes, .ok (config.report outcomes),
      still (Still.atWork after config outcomes) holds', fills, fun budget enough => ?_⟩
    obtain ⟨enabled, watched⟩ := ends budget enough
    have begins : ¬(engine.running = true ∨ config.usableCount = 0) := by simp [idle, unusable]
    rw [start_usable idle unusable, enabled, startEvents, if_neg begins]
    exact ⟨rfl, watched⟩

end Enabling

/-- An engine that starts subscribes to the actions of the circuits, one after the other. -/
theorem start_keeps (config : EngineConfig) (Holds : Engine ς → List Circuit → Prop)
    (first : ∀ {engine circuits}, Holds engine circuits → engine.plant.bus.generation = 0)
    (aside : ∀ {engine after circuits}, engine.Aside after → Holds engine circuits →
      Holds after circuits)
    (subscribes : ∀ {engine circuits} (circuit : Circuit) (drive : Drive),
      circuits ++ [circuit] <+: config.circuits → drive.output = circuit.output →
      Holds engine circuits → ∃ least after handle, Holds after (circuits ++ [circuit]) ∧
        ∀ budget, least ≤ budget →
          engine.subscribe budget circuit.actions (drive.fire engine.sink) = some (after, handle))
    {engine : Engine ς} (idle : engine.running = false) (none_active : engine.active = [])
    (holds : Holds engine []) :
    ∃ started, engine.Starts config started ∧ Holds started config.circuits ∧
      List.Forall₂ ActiveRule.Follows started.active config.circuits := by
  have adds {engine ready : Engine ς} {posts : List Post} (post : Post) (drive : Drive)
      (part : posts ++ [post] <+: config.posts) (readies : engine.Readies ready drive post)
      (holds : Holds engine (posts.map Post.circuit)) :
      ∃ least es' after handle, Holds after ((posts ++ [post]).map Post.circuit) ∧
        ∀ budget, least ≤ budget →
          ready.subscribe budget post.circuit.actions (drive.fire engine.sink) =
              some (after, handle) ∧
            ready.subscribeEvents budget post.circuit.actions (drive.fire engine.sink) = es' := by
    have part' : posts.map Post.circuit ++ [post.circuit] <+: config.circuits := by
      rw [config.circuits_eq]
      simpa using part.map Post.circuit
    obtain ⟨least, after, handle, holds', ends⟩ :=
      subscribes post.circuit drive part' readies.serves.output (aside readies.aside holds)
    rw [readies.aside.sink] at ends
    obtain ⟨network, rfl, run⟩ := run_of_subscribe (ends least (Nat.le_refl _))
    obtain ⟨least', ends'⟩ := subscribe_of_run run
    refine ⟨max least least',
      ready.subscribeEvents least post.circuit.actions (drive.fire engine.sink), _, handle,
      by simpa using holds', fun budget enough => ?_⟩
    exact ⟨ends budget (by omega), (ends' budget (by omega)).2⟩
  obtain ⟨least, es, started, report, holds', fills, ends⟩ :=
    start_fills config (fun engine posts _ => Holds engine (posts.map Post.circuit)) first
      (fun still holds => aside still.toAside holds) (fun post drive => adds post drive)
      idle none_active holds
  rw [config.circuits_eq]
  refine ⟨started, ⟨least, report, fun budget enough => (ends budget enough).1⟩, holds', ?_⟩
  exact List.forall₂_map_right_iff.mpr (fills.imp fun _ _ fills => fills.follows)

/-- The subscriptions of a network are those of circuits, in order. -/
structure Wired (sink : Sink ς) (network : PlantNetwork ς) (circuits : List Circuit) : Prop where
  length : network.subscriptions.length = circuits.length
  circuit : ∀ (n : Nat) (circuit : Circuit), circuits[n]? = some circuit →
    ∃ state, ∃ drive : Drive, drive.output = circuit.output ∧
      network.subscriptions[n]? = some ⟨circuit.actions, state, drive.fire sink⟩

namespace Wired

variable {sink : Sink ς} {network next : PlantNetwork ς} {circuits : List Circuit}

theorem start (sink : Sink ς) (plant : Plant ς) : Wired sink (Network.start plant) [] :=
  ⟨rfl, fun _ _ h => nomatch h⟩

theorem keeps (wired : Wired sink network circuits) (keeps : network.Keeps next)
    (length : next.subscriptions.length = network.subscriptions.length) :
    Wired sink next circuits := by
  refine ⟨length.trans wired.length, fun n circuit here => ?_⟩
  obtain ⟨state, drive, output, there⟩ := wired.circuit n circuit here
  obtain ⟨state', there'⟩ := keeps n _ there
  exact ⟨state', drive, output, there'⟩

theorem snoc (wired : Wired sink network circuits) (keeps : network.Keeps next)
    (length : next.subscriptions.length = network.subscriptions.length + 1) {circuit : Circuit}
    {state : circuit.actions.State} {drive : Drive} (output : drive.output = circuit.output)
    (there : next.subscriptions[network.subscriptions.length]? =
      some ⟨circuit.actions, state, drive.fire sink⟩) :
    Wired sink next (circuits ++ [circuit]) := by
  refine ⟨by rw [length, wired.length, List.length_append, List.length_singleton], ?_⟩
  intro n other here
  rw [List.getElem?_append] at here
  split at here
  · obtain ⟨state, drive, output, there⟩ := wired.circuit n other here
    obtain ⟨state', there'⟩ := keeps n _ there
    exact ⟨state', drive, output, there'⟩
  · obtain ⟨small, _⟩ := List.getElem?_eq_some_iff.mp here
    rw [List.length_singleton] at small
    obtain rfl : n = circuits.length := by omega
    obtain rfl : circuit = other := by simpa using here
    rw [wired.length] at there
    exact ⟨state, drive, output, there⟩

end Wired

/-- What is related one by one is related place by place. -/
theorem related_at {α β : Type} {related : α → β → Prop} {xs : List α} {ys : List β}
    (all : List.Forall₂ related xs ys) {n : Nat} {x : α} (here : xs[n]? = some x) :
    ∃ y, ys[n]? = some y ∧ related x y := by
  induction all generalizing n with
  | nil => exact nomatch here
  | cons first _ ih =>
    cases n with
    | zero =>
      obtain rfl := Option.some.inj here
      exact ⟨_, rfl, first⟩
    | succ n => exact ih here

/-- An active rule has the circuit that stands in its place. -/
theorem follows_at {rules : List ActiveRule} {circuits : List Circuit}
    (follows : List.Forall₂ ActiveRule.Follows rules circuits) {n : Nat} {rule : ActiveRule}
    (here : rules[n]? = some rule) : ∃ circuit, circuits[n]? = some circuit ∧
      rule.Follows circuit :=
  related_at follows here

/-- For every circuit there is an active rule in its place. -/
theorem active_at {rules : List ActiveRule} {circuits : List Circuit}
    (follows : List.Forall₂ ActiveRule.Follows rules circuits) {n : Nat} {circuit : Circuit}
    (here : circuits[n]? = some circuit) : ∃ rule, rules[n]? = some rule ∧
      rule.Follows circuit :=
  related_at follows.flip here

end Engine

end Switchboard
