import Switchboard.Config.Service
import Switchboard.Engine.Operation
import Switchboard.Host.Input

/-!
# The service

The service publishes the updates of its input on a bus and writes every
delivery of the rules to its output. Its life has three parts: it opens, it
takes one line of input after the other, and it closes.
-/
namespace Switchboard.Host

/-- A sink that queues deliveries for the output. -/
def channel (loopback : Bool) : Outlet := .limited none "output channel" loopback

/-- An error with what caused it, if that is known. -/
structure Failure where
  context : String
  cause : Option String
  deriving Repr, DecidableEq

def Failure.message (failure : Failure) : String :=
  match failure.cause with
  | none => failure.context
  | some cause => failure.context ++ ": " ++ cause

/-- What a finished run did. -/
structure Summary where
  report : StartReport
  updates : Nat
  outputs : Nat
  deriving Repr, DecidableEq

/-- The service while it takes input. -/
structure Service : Type 1 where
  engine : Engine Outlet
  report : StartReport
  updates : Nat
  lines : Nat
  /-- The number of deliveries that the journal no longer holds. -/
  flushed : Nat
  /-- Whether the input is over: a line was no text. -/
  failed : Bool

def noteAs (level : Level) (origin : Origin) (text : String) (engine : Engine Outlet) :
    Engine Outlet :=
  engine.write [.note ⟨level, origin, text⟩]

/-- The engine of a service before its rules start; `look` tells what stands at a path. -/
def fresh (look : String → Presence) (config : ServiceConfig) : Engine Outlet :=
  let engine : Engine Outlet :=
    .new Outlet.sink (channel config.loopback) (config.ruleLogRoot?.map (⟨·, look⟩))
  match config.ruleLogRoot? with
  | some root =>
    noteAs .info .service ("Rule transition logs under " ++ RuleLog.rootUnder root) engine
  | none => engine

def noteNotStarted (engine : Engine Outlet) (dropped : DroppedRule) : Engine Outlet :=
  noteAs .warn .service
    ("Rule '" ++ dropped.rule ++ "' not started: " ++ dropped.reason.message) engine

def startContext : String := "Failed to start rule engine"

/-- Starts the configured rules; the engine with the failure if there are none. -/
def Service.opened (budget : Nat) (look : String → Presence) (config : ServiceConfig) :
    Option (Except (Engine Outlet × Failure) Service) :=
  ((fresh look config).start budget config.engine).map fun (engine, result) =>
    match result with
    | .error e => .error (engine, ⟨startContext, some e.message⟩)
    | .ok report => .ok ⟨report.dropped.foldl noteNotStarted engine, report, 0, 0, 0, false⟩

/-- The words that a text can begin with in place of a value. -/
def valueWords : List (List Char) := ["null", "true", "false"].map String.toList

/-- The number of characters that two texts begin with in common. -/
def commonLength : List Char → List Char → Nat
  | c :: rest, d :: more => if c = d then commonLength rest more + 1 else 0
  | _, _ => 0

def atColumn (complaint : String) (column : Nat) : String :=
  complaint ++ " at line 1 column " ++ toString column

/-- What is wrong with a text that is no JSON, as far as its beginning shows. -/
def malformedText (text : List Char) : String :=
  match valueWords.find? (fun word => 0 < commonLength word text) with
  | none => atColumn "expected value" 1
  | some word =>
    let read := commonLength word text
    if read = text.length then atColumn "EOF while parsing a value" read
    else atColumn "expected ident" (read + 1)

/-- The text of the note on a faulty line. -/
def faultText (text : String) : Fault → String
  | .malformed => malformedText (Text.trim text.toList)
  | .mistyped => atColumn "invalid type" 1

def skippedText (number : Nat) (text : String) (fault : Fault) : String :=
  "Skipping malformed input line " ++ toString number ++ ": " ++ faultText text fault

/-- Publishes an update. -/
def Service.publish (budget : Nat) (service : Service) (update : Update) : Option Service :=
  let noted := noteAs .trace .host
    ("update " ++ update.path ++ " = " ++ update.value.text) service.engine
  (noted.publish budget update.path update.value).map fun (engine, _) =>
    { service with engine := engine, updates := service.updates + 1 }

/-- Takes one line of input. -/
def Service.take (budget : Nat) (service : Service) (line : List UInt8) : Option Service :=
  if service.failed then some service
  else
    let counted := { service with lines := service.lines + 1 }
    match InputLine.ofBytes line with
    | .update update => counted.publish budget update
    | .blank => some counted
    | .faulty text fault =>
      some { counted with
        engine := noteAs .warn .host (skippedText counted.lines text fault) counted.engine }
    | .noText => some { service with failed := true }

/-- The deliveries in the journal. -/
def Service.deliveries (service : Service) : List Delivery :=
  service.engine.journal.filterMap Entry.delivery?

/-- The number of deliveries so far. -/
def Service.outputs (service : Service) : Nat := service.flushed + service.deliveries.length

/-- Takes the entries out of the journal. -/
def Service.flush (service : Service) : List Entry × Service :=
  (service.engine.journal,
    { service with engine := service.engine.forget, flushed := service.outputs })

/-- Gives the output a turn. A broken one is found out if something is to be written. -/
def Service.tryOutput (broken : Option String) (service : Service) : Service :=
  if broken.isSome && !service.deliveries.isEmpty then
    { service with
      engine := service.engine.alter fun plant => { plant with sink := plant.sink.close } }
  else service

/-- The number of updates between two turns of the output. -/
def burst : Nat := 128

/--
Takes lines of input, and no more after `limit` updates if that is set. `broken` is the error of
an output that takes nothing.
-/
def Service.takeAll (budget : Nat) (limit : Option Nat) (broken : Option String) :
    Service → List (List UInt8) → Option Service
  | service, [] => some service
  | service, line :: rest =>
    if limit = some service.updates then some service
    else
      let ready := if service.updates % burst = 0 then service.tryOutput broken else service
      match ready.take budget line with
      | some service => Service.takeAll budget limit broken service rest
      | none => none

/-- Notes how the input ended. -/
def Service.noteEnd (service : Service) (interrupted : Bool) : Engine Outlet :=
  if interrupted then noteAs .info .host "Shutdown signal received" service.engine
  else if service.failed then
    noteAs .warn .service "Input read failed: stream did not contain valid UTF-8" service.engine
  else
    noteAs .debug .host ("Input ended after " ++ toString service.lines ++ " lines")
      service.engine

def outputContext : String := "Failed to write output"

def finishedText (updates outputs : Nat) : String :=
  "logicsrv finished: " ++ toString updates ++ " updates in, " ++ toString outputs ++ " outputs"

/-- Stops the rules and closes the output, which may turn out to be broken. -/
def Service.close (service : Service) (interrupted : Bool) (broken : Option String) :
    Engine Outlet × Except Failure Summary :=
  let stopped := (service.noteEnd interrupted).stop
  match broken with
  | some cause => (stopped, .error ⟨outputContext, some cause⟩)
  | none =>
    (noteAs .info .service (finishedText service.updates service.outputs) stopped,
      .ok ⟨service.report, service.updates, service.outputs⟩)

/-- The line that reports a delivery. -/
def reported (delivery : Delivery) : String := delivery.line ++ "\n"

/-- The lines that report deliveries. -/
def written (deliveries : List Delivery) : String := String.join (deliveries.map reported)

/-- What a whole run left behind: its journal, what it wrote, and how it ended. -/
structure Run where
  journal : List Entry
  written : String
  result : Except Failure Summary

/--
Runs the service over an input. `look` tells what stands at a path, `limit` is
the number of updates after which the service is told to shut down, `broken`
the error of an output that takes nothing.
-/
def serve (budget : Nat) (look : String → Presence) (config : ServiceConfig)
    (input : List UInt8) (limit : Option Nat) (broken : Option String) : Option Run :=
  match Service.opened budget look config with
  | none => none
  | some (.error (engine, failure)) =>
    let noted := match broken with
      | some cause => noteAs .warn .service ("Output writer failed: " ++ cause) engine
      | none => engine
    some ⟨noted.journal, "", .error failure⟩
  | some (.ok service) =>
    (service.takeAll budget limit broken (lines input)).map fun service =>
      let (engine, result) := service.close (limit == some service.updates) broken
      ⟨engine.journal, if broken.isSome then "" else written service.deliveries, result⟩

/-- Starts the configured rules over a bus of their own, only to see which would start. -/
def check (budget : Nat) (config : ServiceConfig) :
    Option (List Entry × Except Failure StartReport) :=
  let engine : Engine Outlet := .new Outlet.sink (channel false) none
  (engine.start budget config.engine).map fun (engine, result) =>
    match result with
    | .error e => (engine.journal, .error ⟨"No usable rules", some e.message⟩)
    | .ok report => (engine.stop.journal, .ok report)

end Switchboard.Host
