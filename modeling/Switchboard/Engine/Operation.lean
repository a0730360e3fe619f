import Switchboard.Engine.Compile

/-!
# The rule engine at work

An engine is a plant with the network over it and the rules that are active.
Starting subscribes one rule after the other; what a rule does at once is done
before the next one is looked at. Stopping takes every subscription back.

Operations that set off listeners take a budget of steps and have no result
when it does not suffice.
-/
namespace Switchboard

/-- A rule at work. Its tally is kept in the plant. -/
structure ActiveRule where
  key : String
  description : String
  input : String
  output : String
  mode : DeliveryMode
  handle : Handle Line
  deriving DecidableEq

structure Engine (ς : Type) : Type 1 where
  sink : Sink ς
  /-- The logs of rules, if rules keep any. -/
  logs : Option RuleLog.Shelf
  network : PlantNetwork ς
  active : List ActiveRule
  running : Bool

namespace Engine

variable {ς : Type}

/-- An engine without rules. Where a site is given, rules keep logs there. -/
def new (sink : Sink ς) (remembered : ς) (logs : Option RuleLog.Site) : Engine ς :=
  ⟨sink, logs.map RuleLog.Shelf.empty, .start (.start remembered), [], false⟩

def plant (engine : Engine ς) : Plant ς := engine.network.memory

/-- Everything that has happened, in order. -/
def journal (engine : Engine ς) : List Entry := engine.network.journal.reverse

/-- The engine with an empty journal. -/
def forget (engine : Engine ς) : Engine ς :=
  { engine with network := { engine.network with journal := [] } }

/-- Changes the plant without anybody noticing. -/
def alter (f : Plant ς → Plant ς) (engine : Engine ς) : Engine ς :=
  { engine with network := { engine.network with memory := f engine.network.memory } }

def write (entries : List Entry) (engine : Engine ς) : Engine ς :=
  { engine with network := engine.network.write entries }

def note (level : Level) (text : String) (engine : Engine ς) : Engine ς :=
  engine.write [.note ⟨level, .engine, text⟩]

/-- Shows a message to the operator. -/
def setMessage (message : String) (engine : Engine ς) : Engine ς :=
  (engine.note .info message).alter (.setMessage message)

/-- Runs a script and all that it sets off. -/
def perform (budget : Nat) (script : PlantScript ς) (engine : Engine ς) : Option (Engine ς) :=
  (engine.network.perform budget script).map fun network => { engine with network := network }

/-- Publishes a value on the bus; also the number of listeners that is reported. -/
def publish (budget : Nat) (path : String) (value : Json) (engine : Engine ς) :
    Option (Engine ς × Nat) :=
  (engine.perform budget (PlantScript.publish path value fun n =>
    .change (fun plant => { plant with audience := n }) .done)).map fun engine =>
      (engine, engine.plant.audience)

/-- The latest value at a path that the bus knows. -/
def latest? (path : String) (engine : Engine ς) : Option Json :=
  if path ∈ engine.plant.bus.paths then engine.network.latest (engine.plant.bus.line path)
  else none

def pathCount (engine : Engine ς) : Nat := engine.plant.bus.paths.length

/-- The number of listeners at all paths that the bus knows. -/
def listenerCount (engine : Engine ς) : Nat :=
  engine.plant.bus.paths.foldl (fun count path =>
    count + engine.network.listenerCount (engine.plant.bus.line path)) 0

/-- Offers a delivery to the sink; also what it answers. -/
def offer (budget : Nat) (delivery : Delivery) (engine : Engine ς) :
    Option (Engine ς × Answer) :=
  (engine.perform budget (PlantScript.offer engine.sink delivery fun _ => .done)).map fun after =>
    (after, (engine.sink.offer engine.plant.sink delivery).2)

/-- Attaches a listener to a stream. -/
def subscribe {α : Type} (budget : Nat) (stream : BusStream α) (listener : α → PlantScript ς)
    (engine : Engine ς) : Option (Engine ς × Handle Line) :=
  (engine.perform budget (.subscribe stream listener fun _ => .done)).map fun after =>
    (after, stream.handle engine.network.subscriptions.length)

def detach (registrations : List (Registration Line)) (engine : Engine ς) : Engine ς :=
  { engine with network := engine.network.detach registrations }

/-- Makes paths known to the bus. -/
def touch (paths : List String) (engine : Engine ς) : Engine ς :=
  engine.alter fun plant => { plant with bus := plant.bus.touchAll paths }

/-- Notes that a rule is not started. -/
def noteDropped (context : String) (dropped : DroppedRule) (engine : Engine ς) : Engine ς :=
  let message := context ++ " '" ++ dropped.rule ++ "' (" ++ dropped.reason.message ++ ")"
  (engine.note .warn message).alter (.setError message)

/-- Takes the log of a rule into use if rules keep logs; also where it is. -/
def takeLog (key : String) (engine : Engine ς) : Engine ς × Option RuleLog.Place :=
  match engine.logs with
  | none => (engine, none)
  | some shelf =>
    let (shelf, place) := shelf.get key
    (({ engine with logs := some shelf }).write place.entries, some place)

def describe (compiled : CompiledRule) (rule : Nat) (log : Option String) : Drive where
  rule := rule
  description := compiled.description
  output := compiled.term
  mode := compiled.mode
  log := log

/-- Starts a compiled rule. -/
def activate (budget : Nat) (compiled : CompiledRule) (engine : Engine ς) :
    Option (Engine ς × ActiveRule) :=
  let (logging, place) := engine.takeLog compiled.key
  let drive := describe compiled engine.plant.tallies.length (place.bind (·.open?))
  let prepared := logging.alter fun plant => { plant with tallies := plant.tallies ++ [.zero] }
  (prepared.subscribe budget compiled.actions (drive.fire engine.sink)).map fun (after, handle) =>
    (after,
      { key := compiled.key
        description := compiled.description
        input := compiled.input
        output := compiled.output
        mode := compiled.mode
        handle := handle })

/-- Compiles a candidate and starts it, or notes why it is not started. -/
def enable (budget : Nat) (config : EngineConfig) (index : Nat) (rule : RuleConfig)
    (engine : Engine ς) : Option (Engine ς × Except DroppedRule ActiveRule) :=
  let bus := engine.plant.bus
  let prepared := ((engine.note .debug ("enabling rule " ++ rule.displayName)).write
    (rule.compileNotes.map .note)).touch rule.compilePaths
  match config.compile bus index rule with
  | .error reason =>
    let dropped : DroppedRule := ⟨rule.displayName, reason⟩
    some (prepared.noteDropped "ignoring badly formed rule" dropped, .error dropped)
  | .ok compiled =>
    (prepared.activate budget compiled).map fun (after, active) => (after, .ok active)

/-- Compiles and starts candidates in order: the engine, and what became of each. -/
def enableAll (budget : Nat) (config : EngineConfig) :
    List (RuleConfig × Nat) → Engine ς → Option (Engine ς × List (Except DroppedRule ActiveRule))
  | [], engine => some (engine, [])
  | (rule, index) :: rest, engine =>
    match engine.enable budget config index rule with
    | none => none
    | some (engine, outcome) =>
      (enableAll budget config rest engine).map fun (engine, outcomes) =>
        (engine, outcome :: outcomes)

def activeOf (outcomes : List (Except DroppedRule ActiveRule)) : List ActiveRule :=
  outcomes.filterMap Except.toOption

def droppedOf (outcomes : List (Except DroppedRule ActiveRule)) : List DroppedRule :=
  outcomes.filterMap fun
    | .error dropped => some dropped
    | .ok _ => none

def operatingMessage (count : Nat) : String :=
  "Operating " ++ toString count ++ (if count = 1 then " rule" else " rules")

def startedMessage (report : StartReport) : String :=
  "Rule engine started: " ++ toString report.activated.length ++ " active, " ++
    toString report.dropped.length ++ " dropped, " ++
    toString report.skipped.length ++ " skipped"

/-- Starts the configured rules. -/
def start (budget : Nat) (config : EngineConfig) (engine : Engine ς) :
    Option (Engine ς × Except RuleError StartReport) :=
  if engine.running then some (engine, .error .alreadyRunning)
  else
    let sorted := config.incomplete.foldl (fun engine dropped =>
      engine.noteDropped "Dropping rule" dropped) engine
    if config.usableCount = 0 then
      some ((sorted.note .error RuleError.noRules.message).alter
        (.setError RuleError.noRules.message), .error .noRules)
    else
      (enableAll budget config config.candidates
        (sorted.setMessage (operatingMessage config.usableCount))).map fun (after, outcomes) =>
          let active := activeOf outcomes
          let report : StartReport :=
            ⟨active.map (·.description), config.incomplete ++ droppedOf outcomes, config.skipped⟩
          ({ after.note .info (startedMessage report) with active := active, running := true },
            .ok report)

def stoppedMessage (count : Nat) : String :=
  "Stopped (" ++ toString count ++ " rules released)"

/-- Stops all rules. Stopping again changes nothing. -/
def stop (engine : Engine ς) : Engine ς :=
  if engine.running then
    let released := engine.active.foldl (fun engine rule =>
      engine.detach rule.handle.released) engine
    let logs := engine.logs.map fun shelf =>
      engine.active.foldl (fun shelf rule => shelf.remove rule.key) shelf
    let cleared := { released with active := [], running := false, logs := logs }
    (cleared.alter fun plant => { plant with tallies := [] }).setMessage
      (stoppedMessage engine.active.length)
  else engine

/-- A new engine in place of the old one, over the same plant. -/
def replace (engine : Engine ς) : Engine ς :=
  let stopped := engine.stop.alter fun plant => { plant with board := ⟨none, none⟩ }
  { stopped with logs := stopped.logs.map fun shelf => .empty shelf.site }

/-- Starts a new generation of paths. -/
def clearBus (engine : Engine ς) : Engine ς :=
  engine.alter fun plant => { plant with bus := plant.bus.clear }

/-- How an active rule stands. -/
structure RuleStatus where
  rule : ActiveRule
  tally : Tally
  deriving DecidableEq

structure Status where
  running : Bool
  board : Board
  rules : List RuleStatus
  deriving DecidableEq

def status (engine : Engine ς) : Status where
  running := engine.running
  board := engine.plant.board
  rules := List.zipWith RuleStatus.mk engine.active engine.plant.tallies

/-- Lets a watcher hear the values of an expression, if it has any. -/
def watch (budget : Nat) (watcher : String) (text : String) (engine : Engine ς) :
    Option (Engine ς × Option (Handle Line)) :=
  let touched := engine.touch (Input.paths text)
  match Input.evaluate engine.plant.bus text with
  | none => some (touched, none)
  | some stream =>
    (touched.subscribe budget stream fun b =>
      .record (.heard watcher (.int (if b then 1 else 0))) .done).map fun (after, handle) =>
        (after, some handle)

/-- Lets a watcher hear the values of a path as text. -/
def tail (budget : Nat) (watcher : String) (path : String) (engine : Engine ς) :
    Option (Engine ς × Handle Line) :=
  (engine.touch [path]).subscribe budget (.subject (engine.plant.bus.line path)) fun value =>
    .record (.heard watcher (.string value.text)) .done

end Engine

end Switchboard
