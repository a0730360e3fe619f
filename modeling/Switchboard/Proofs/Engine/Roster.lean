import Switchboard.Proofs.Engine.Staff
import Switchboard.Proofs.Engine.Starting

/-!
# Who is started

An engine that starts makes notes, takes logs into use and shows messages, and
no rule takes notice of any of that. Apart from it, every candidate that can be
compiled joins the rules at work as the last one. So a ledger that is right
before a start is right after it, and the rules that are listed afterwards are
those at work.
-/
namespace Switchboard

open Event Network

variable {ς : Type}

/-- The directory of the log for a key, if it can be made. -/
def RuleLog.Site.log? (site : RuleLog.Site) (key : String) : Option String :=
  if (site.obstacle? (RuleLog.directoryName key)).isNone then some (RuleLog.directoryName key)
  else none

/-- What a rule knows of itself when it fires is what it is listed with. -/
structure Drive.Mans (drive : Drive) (rule : ActiveRule) (site : Option RuleLog.Site) : Prop where
  description : drive.description = rule.description
  output : Term.ofText? rule.output = some drive.output
  mode : drive.mode = rule.mode
  log : drive.log = site.bind (·.log? rule.key)

/-- A rule that has been compiled drives the term that its output stands for. -/
theorem EngineConfig.term_of_compile {config : EngineConfig} {bus : Bus} {index : Nat}
    {rule : RuleConfig} {compiled : CompiledRule}
    (compiles : config.compile bus index rule = .ok compiled) :
    Term.ofText? compiled.output = some compiled.term := by
  obtain ⟨circuit, output, term, _⟩ := EngineConfig.circuit_of_compile compiles
  rw [output, term]

/-- What is kept of the journal tells of deliveries and of the logs of rules. -/
theorem Entry.read_of_kept {β : Type} {read : Entry → Option β}
    (same : ∀ entry : Entry, entry.kept?.bind read = read entry) (entries : List Entry) :
    (entries.filterMap Entry.kept?).filterMap read = entries.filterMap read := by
  rw [List.filterMap_filterMap]
  exact congrArg (List.filterMap · entries) (funext same)

namespace Engine

variable {engine middle after : Engine ς}

/-- Where rules keep logs. -/
def site (engine : Engine ς) : Option RuleLog.Site := engine.logs.map (·.site)

/-- The lines of rule logs, each with the directory of its log. -/
def ruleLines (engine : Engine ς) : List (String × String) :=
  engine.journal.filterMap Entry.ruleLine?

/-- Nothing has happened that rules or their logs take notice of. -/
structure Aloof (engine after : Engine ς) : Prop extends engine.Still after where
  site : after.site = engine.site
  lines : after.ruleLines = engine.ruleLines

namespace Aloof

theorem refl (engine : Engine ς) : engine.Aloof engine := ⟨.refl engine, rfl, rfl⟩

theorem trans (first : engine.Aloof middle) (second : middle.Aloof after) : engine.Aloof after :=
  ⟨first.toStill.trans second.toStill, second.site.trans first.site,
    second.lines.trans first.lines⟩

theorem write (engine : Engine ς) {entries : List Entry}
    (unread : ∀ entry ∈ entries, entry.ruleLine? = none) : engine.Aloof (engine.write entries) where
  toStill := .write engine entries
  site := rfl
  lines := by
    simp [ruleLines, journal, Engine.write, Network.write, List.filterMap_eq_nil_iff.mpr unread]

theorem note (engine : Engine ς) (level : Level) (text : String) :
    engine.Aloof (engine.note level text) :=
  .write engine (List.forall_mem_singleton.mpr rfl)

theorem alter (engine : Engine ς) {f : Plant ς → Plant ς}
    (generation : (f engine.plant).bus.generation = engine.plant.bus.generation)
    (remembered : (f engine.plant).sink = engine.plant.sink)
    (tallies : (f engine.plant).tallies = engine.plant.tallies) : engine.Aloof (engine.alter f) :=
  ⟨.alter engine generation remembered tallies, rfl, rfl⟩

theorem setMessage (engine : Engine ς) (message : String) :
    engine.Aloof (engine.setMessage message) :=
  (note engine _ _).trans (alter _ rfl rfl rfl)

theorem noteDropped (engine : Engine ς) (context : String) (dropped : DroppedRule) :
    engine.Aloof (engine.noteDropped context dropped) :=
  (note engine _ _).trans (alter _ rfl rfl rfl)

theorem touch (engine : Engine ς) (paths : List String) : engine.Aloof (engine.touch paths) :=
  alter engine (touchAll_generation _ paths) rfl rfl

theorem noted (engine : Engine ς) (rule : RuleConfig) : engine.Aloof (engine.noted rule) := by
  refine (note engine .debug _).trans ((write _ fun entry member => ?_).trans (touch _ _))
  obtain ⟨_, _, rfl⟩ := List.mem_map.mp member
  rfl

/-- A log is taken into use without a line in it. -/
theorem takeLog (engine : Engine ς) (key : String) : engine.Aloof (engine.takeLog key).1 := by
  refine ⟨.takeLog engine key, ?_, ?_⟩
  · unfold Engine.takeLog
    split
    · rfl
    · rename_i shelf kept
      exact (congrArg some (shelf.get_site key)).trans (congrArg (Option.map _) kept).symm
  · unfold Engine.takeLog
    split
    · rfl
    · rename_i shelf _
      have unread : ∀ entry ∈ (shelf.get key).2.entries, entry.ruleLine? = none :=
        shelf.get_unread (fun _ => rfl) (fun _ => rfl) key
      let taken : Engine ς := { engine with logs := some (shelf.get key).1 }
      exact (write taken unread).lines

theorem sorted (engine : Engine ς) (config : EngineConfig) :
    engine.Aloof (engine.sorted config) := by
  unfold Engine.sorted
  generalize config.incomplete = dropped
  induction dropped generalizing engine with
  | nil => exact .refl engine
  | cons first rest ih => exact (noteDropped engine _ _).trans (ih _)

theorem operating (engine : Engine ς) (config : EngineConfig) :
    engine.Aloof (engine.operating config) :=
  (sorted engine config).trans (setMessage _ _)

theorem failed (engine : Engine ς) (config : EngineConfig) :
    engine.Aloof (engine.failed config) :=
  ((sorted engine config).trans (note _ _ _)).trans (alter _ rfl rfl rfl)

theorem atWork (engine : Engine ς) (config : EngineConfig)
    (outcomes : List (Except DroppedRule ActiveRule)) :
    engine.Aloof (engine.atWork config outcomes) :=
  (note engine .info (startedMessage (config.report outcomes))).trans
    ⟨⟨⟨rfl, ⟨rfl, rfl⟩, rfl, rfl⟩, rfl⟩, rfl, rfl⟩

end Aloof

theorem write_write (engine : Engine ς) (entries more : List Entry) :
    (engine.write entries).write more = engine.write (entries ++ more) := by
  simp [Engine.write, Network.write]

/-- Where nothing can be started, there are some notes, and an error is shown. -/
theorem failed_eq (engine : Engine ς) (config : EngineConfig) :
    ∃ notes : List Note, engine.failed config =
      (engine.write (notes.map .note)).alter (.setError RuleError.noRules.message) := by
  have dropped (rules : List DroppedRule) : ∃ notes : List Note, ∀ message,
      (rules.foldl (fun engine dropped => engine.noteDropped "Dropping rule" dropped) engine).alter
        (.setError message) = (engine.write (notes.map .note)).alter (.setError message) := by
    induction rules generalizing engine with
    | nil => exact ⟨[], fun _ => rfl⟩
    | cons first rest ih =>
      obtain ⟨notes, same⟩ := ih (engine.noteDropped "Dropping rule" first)
      refine ⟨⟨.warn, .engine, "Dropping rule" ++ " '" ++ first.rule ++ "' (" ++
        first.reason.message ++ ")"⟩ :: notes, fun message => (same message).trans ?_⟩
      rw [List.map_cons, ← List.singleton_append, ← write_write]
      rfl
  obtain ⟨notes, same⟩ := dropped config.incomplete
  refine ⟨notes ++ [⟨.error, .engine, RuleError.noRules.message⟩], ?_⟩
  rw [List.map_append, ← write_write]
  exact congrArg (Engine.note .error RuleError.noRules.message) (same RuleError.noRules.message)

/-- What is seen of the plant of an engine. -/
def sight (engine : Engine ς) : Sight ς := engine.network.seen Plant.holdings Entry.kept?

theorem sight_lines (engine : Engine ς) :
    engine.sight.2.filterMap Entry.ruleLine? = engine.ruleLines :=
  Entry.read_of_kept (fun entry => by cases entry <;> rfl) _

theorem sight_deliveries (engine : Engine ς) :
    engine.sight.2.filterMap Entry.delivery? = engine.deliveries :=
  Entry.read_of_kept (fun entry => by cases entry <;> rfl) _

/-- What is shown to the operator is in sight, but for which rules there are. -/
theorem status_congr (seen : after.sight = engine.sight) (running : after.running = engine.running)
    (active : after.active = engine.active) : after.status = engine.status := by
  have board : after.plant.board = engine.plant.board := congrArg (·.1.board) seen
  have tallies : after.plant.tallies = engine.plant.tallies := congrArg (·.1.tallies) seen
  unfold status
  rw [running, active, board, tallies]

/-- What is not noticed leaves a ledger right. -/
theorem Aloof.right (aloof : engine.Aloof after) {sink : Sink ς} {changes : ς → ς → Prop}
    {base : Nat} {right : Reckoning ς} (books : Bookkeeping sink changes base right) {crew : Crew}
    {es : List (Event Line Json)} (holds : right crew es engine.sight) :
    right crew es after.sight := by
  have tallies : after.sight.1.tallies = engine.sight.1.tallies := aloof.tallies
  have remembered : after.sight.1.sink = engine.sight.1.sink := aloof.remembered
  have lines : after.sight.2.filterMap Entry.ruleLine? =
      engine.sight.2.filterMap Entry.ruleLine? := by
    rw [sight_lines, sight_lines, aloof.lines]
  exact books.shows tallies remembered lines holds

/-- The log that a rule writes to is a matter of its key. -/
theorem takeLog_open (engine : Engine ς) (key : String) :
    (engine.takeLog key).2.bind (·.open?) = engine.site.bind (·.log? key) := by
  unfold takeLog site
  split
  · rename_i none_kept
    rw [none_kept]
    rfl
  · rename_i shelf kept
    rw [kept]
    show (shelf.get key).2.open? = shelf.site.log? key
    unfold RuleLog.Shelf.get
    dsimp only
    split <;> rfl

/-- The rules at work in an engine. -/
structure Crewed (sink : Sink ς) (right : Reckoning ς) (base : Nat) (crew : Crew)
    (past es : List (Event Line Json)) (engine : Engine ς) : Prop where
  same_sink : engine.sink = sink
  staffed : Staffed sink right base crew past es engine.network []
  mans : ∀ drive rule, (drive, rule) ∈ crew → drive.Mans rule engine.site

namespace Crewed

variable {sink : Sink ς} {changes : ς → ς → Prop} {right : Reckoning ς} {base : Nat} {crew : Crew}
variable {past es : List (Event Line Json)}

theorem aloof (crewed : engine.Crewed sink right base crew past es)
    (books : Bookkeeping sink changes base right) (aloof : engine.Aloof after) :
    after.Crewed sink right base crew past es where
  same_sink := aloof.sink.trans crewed.same_sink
  staffed := crewed.staffed.alike aloof.alike (aloof.right books crewed.staffed.holds)
  mans := by rw [aloof.site]; exact crewed.mans

/-- A compiled rule is started: it is the last one at work. -/
theorem activate (crewed : engine.Crewed sink right base crew past es)
    (books : Bookkeeping sink changes base right)
    (full : base + crew.length = engine.network.subscriptions.length) {compiled : CompiledRule}
    (discreet : compiled.actions.Discreet Entry.kept?)
    (term : Term.ofText? compiled.output = some compiled.term) {budget : Nat} {active : ActiveRule}
    (ends : engine.activate budget compiled = some (after, active)) :
    ∃ drive, after.Crewed sink right base (crew ++ [(drive, active)]) past
        (es ++ (engine.prepared compiled).subscribeEvents budget compiled.actions
          ((engine.driveOf compiled).fire engine.sink)) ∧
      base + (crew ++ [(drive, active)]).length = after.network.subscriptions.length ∧
      engine.network.KeepsListeners base after.network := by
  have logged := Aloof.takeLog engine compiled.key
  have alike : engine.network.Alike (engine.prepared compiled).network :=
    ⟨logged.alike.subjects, logged.alike.subscriptions⟩
  have place : (engine.driveOf compiled).rule = crew.length := books.counts crewed.staffed.holds
  have ready : Staffed sink (fun _ _ _ => True) base crew past es
      (engine.prepared compiled).network [] := crewed.staffed.alike alike trivial
  obtain ⟨handle, rfl, subscribes⟩ := activate_eq_some.mp ends
  have opened : (compiled.active handle).handle =
      compiled.actions.handle (engine.prepared compiled).network.subscriptions.length := by
    obtain ⟨_, _, same⟩ := Option.map_eq_some_iff.mp subscribes
    exact (Prod.mk.inj same).2.symm
  obtain ⟨network, rfl, run⟩ := run_of_subscribe subscribes
  obtain ⟨later, events, run'⟩ := opening_of_run run
  rw [crewed.same_sink] at events run' ⊢
  have uncalled : calls (base + crew.length) es = [] := by
    have fresh := (crewed.staffed.sound.recorded.fresh _ full.ge).2
    rw [calls_append] at fresh
    exact (List.append_eq_nil_iff.mp fresh).2
  have hired := ready.hires books.toLedger (by rw [alike.subscriptions]; exact full) place discreet
    opened (books.joins place uncalled (logged.right books crewed.staffed.holds))
  refine ⟨engine.driveOf compiled, ⟨?_, ?_, fun drive rule member => ?_⟩, ?_, fun key => ?_⟩
  · exact logged.sink.trans crewed.same_sink
  · have staffed := hired.run books.toLedger run'
    rw [List.append_assoc, List.singleton_append, ← events] at staffed
    exact staffed
  · have site : engine.site = ((engine.prepared compiled).withNetwork network).site :=
      logged.site.symm
    rcases List.mem_append.mp member with before | new
    · rw [← site]
      exact crewed.mans drive rule before
    · obtain ⟨rfl, rfl⟩ := Prod.mk.inj (List.mem_singleton.mp new)
      rw [← site]
      exact ⟨rfl, term, rfl, engine.takeLog_open compiled.key⟩
  · have length := (hired.orderly.tame.run run').2
    rw [withNetwork_network, length, enlisted, List.length_append, List.length_append,
      alike.subscriptions, ← full]
    rfl
  · have joins : ∀ n ∈ openings (κ := Line) (ν := Json) (ρ := Entry) (σ := Plant ς)
        [.opening (engine.prepared compiled).network.subscriptions.length 0
          compiled.actions.leaves .done], decide (n < base) = false := by
      refine List.forall_mem_singleton.mpr (decide_eq_false ?_)
      rw [alike.subscriptions]
      omega
    exact (hired.orderly.tame.listeners_run joins run' key).trans
      (KeepsListeners.of_eq alike.subjects key)

/-- Whether a candidate is started or not, the rules at work are those that are listed. -/
theorem enable (crewed : engine.Crewed sink right base crew past es)
    (books : Bookkeeping sink changes base right)
    (full : base + crew.length = engine.network.subscriptions.length) {config : EngineConfig}
    {index : Nat} {rule : RuleConfig} {budget : Nat} {outcome : Except DroppedRule ActiveRule}
    (ends : engine.enable budget config index rule = some (after, outcome)) :
    ∃ more : Crew, more.map Prod.snd = outcome.toOption.toList ∧
      after.Crewed sink right base (crew ++ more) past
        (es ++ engine.enableEvents budget config index rule) ∧
      base + (crew ++ more).length = after.network.subscriptions.length ∧
      engine.network.KeepsListeners base after.network := by
  have noted := Aloof.noted engine rule
  unfold enableEvents
  rcases enable_eq_some.mp ends with ⟨reason, compiles, rfl, rfl⟩ |
    ⟨compiled, active, compiles, rfl, activates⟩
  · simp only [compiles]
    have dropped := noted.trans (.noteDropped _ "ignoring badly formed rule"
      ⟨rule.displayName, reason⟩)
    refine ⟨[], rfl, ?_, ?_, .of_eq dropped.alike.subjects⟩
    · rw [List.append_nil, List.append_nil]
      exact crewed.aloof books dropped
    · rw [List.append_nil, full, ← dropped.alike.subscriptions]
  · simp only [compiles]
    obtain ⟨drive, crewed', full', stay⟩ := (crewed.aloof books noted).activate books
      (by rw [noted.alike.subscriptions]; exact full) (EngineConfig.discreet_compile compiles)
      (EngineConfig.term_of_compile compiles) activates
    exact ⟨[(drive, active)], rfl, crewed', full',
      (KeepsListeners.of_eq noted.alike.subjects).trans stay⟩

theorem enableAll (crewed : engine.Crewed sink right base crew past es)
    (books : Bookkeeping sink changes base right)
    (full : base + crew.length = engine.network.subscriptions.length) {config : EngineConfig}
    {candidates : List (RuleConfig × Nat)} {budget : Nat}
    {outcomes : List (Except DroppedRule ActiveRule)}
    (ends : Engine.enableAll budget config candidates engine = some (after, outcomes)) :
    ∃ more : Crew, more.map Prod.snd = activeOf outcomes ∧
      after.Crewed sink right base (crew ++ more) past
        (es ++ enableAllEvents budget config candidates engine) ∧
      base + (crew ++ more).length = after.network.subscriptions.length ∧
      engine.network.KeepsListeners base after.network := by
  induction candidates generalizing engine crew es outcomes with
  | nil =>
    obtain ⟨rfl, rfl⟩ := Prod.mk.inj (Option.some.inj ends)
    refine ⟨[], rfl, ?_, by rwa [List.append_nil], .of_eq rfl⟩
    rw [enableAllEvents, List.append_nil, List.append_nil]
    exact crewed
  | cons candidate rest ih =>
    obtain ⟨rule, index⟩ := candidate
    obtain ⟨middle, outcome, later, rfl, enabled, rest_ends⟩ := enableAll_cons.mp ends
    obtain ⟨one, listed, crewed', full', stay⟩ := crewed.enable books full enabled
    obtain ⟨more, listed', crewed'', full'', stay'⟩ := ih crewed' full' rest_ends
    refine ⟨one ++ more, ?_, ?_, by rwa [← List.append_assoc], stay.trans stay'⟩
    · rw [List.map_append, listed, listed', activeOf, activeOf, List.filterMap_cons]
      cases outcome <;> rfl
    · rw [enableAllEvents, enabled, ← List.append_assoc, ← List.append_assoc]
      exact crewed''

/-- Rules are started where there were none. -/
theorem start (crewed : engine.Crewed sink right engine.network.subscriptions.length [] past es)
    (books : Bookkeeping sink changes engine.network.subscriptions.length right)
    (idle : engine.running = false) {config : EngineConfig} {budget : Nat}
    {result : Except RuleError StartReport}
    (ends : engine.start budget config = some (after, result)) :
    ∃ crew : Crew, after.Crewed sink right engine.network.subscriptions.length crew past
        (es ++ engine.startEvents budget config) ∧
      engine.network.subscriptions.length + crew.length = after.network.subscriptions.length ∧
      engine.network.KeepsListeners engine.network.subscriptions.length after.network ∧
      (after.running = true ∧ after.active = crew.map Prod.snd ∨
        after.running = false ∧ result = .error .noRules ∧ after.active = engine.active ∧
          crew = []) := by
  rcases (start_eq_some idle).mp ends with ⟨unusable, rfl, rfl⟩ |
    ⟨usable, middle, outcomes, rfl, rfl, enables⟩
  · have none_started : engine.startEvents budget config = [] := by
      rw [startEvents, if_pos (.inr unusable)]
    obtain ⟨notes, fails⟩ := failed_eq engine config
    have failed := Aloof.failed engine config
    refine ⟨[], ?_, by rw [failed.alike.subscriptions]; rfl, .of_eq failed.alike.subjects,
      .inr ⟨by rw [fails]; exact idle, rfl, failed_active engine config, rfl⟩⟩
    rw [none_started, List.append_nil]
    exact crewed.aloof books failed
  · have operating := Aloof.operating engine config
    obtain ⟨crew, listed, crewed', full, stay⟩ := (crewed.aloof books operating).enableAll books
      (by rw [operating.alike.subscriptions]; rfl) enables
    refine ⟨crew, ?_, full, (KeepsListeners.of_eq operating.alike.subjects).trans stay,
      .inl ⟨rfl, listed.symm⟩⟩
    rw [startEvents, if_neg (by simp [idle, usable])]
    exact crewed'.aloof books (.atWork middle config outcomes)

end Crewed

end Engine

end Switchboard
