import Switchboard.CommandLine.Arguments
import Switchboard.Config.Load
import Switchboard.Host.Service
import Switchboard.Json.Indented
import Switchboard.Log.Directory
import Switchboard.Log.Filter
import Switchboard.Log.Line
import Switchboard.Text.Spelled

/-!
# What a run of the program leaves behind

The configuration is loaded first, then the log is set up, then the command is
carried out; each step may be the last one. Everything that can be seen
afterwards is one value: the exit status, the output, the notes and the error
that ended the program.
-/
namespace Switchboard.CommandLine

open Host (Failure)

/-! ### The log -/

structure Logging where
  filter : Filter
  /-- What is said about the faulty parts of the filter. -/
  complaints : List String
  /-- Where the reading of the filter breaks off, if it does. -/
  brokenOff : Option Text.SplitChar
  directory : Option String

/-- The variable that sets the filter above all else. -/
def filterVariable : String := "RUST_LOG"

namespace Logging

/-- The text of the filter: from the environment, else from the command line, else configured. -/
def filterText (config : ServiceConfig) (invocation : Invocation) (environment : List Variable) :
    String :=
  match valueOf? filterVariable environment, invocation.level with
  | some text, _ => text
  | none, some text => text
  | none, none => config.logging.level

def ofConfig (config : ServiceConfig) (invocation : Invocation) (environment : List Variable) :
    Logging :=
  let text := filterText config invocation environment
  ⟨.ofText text, Filter.complaints text, Filter.brokenOff? text, config.logging.dir⟩

/-- The notes on setting up the log. -/
def notes (logging : Logging) : List Entry :=
  logging.directory.toList.map fun directory =>
    .note ⟨.info, .logging, "Logging: logicsrv @ " ++ Text.spelledOut directory⟩

/-- What stands against the log's directory. -/
def obstacle? (look : String → Presence) (logging : Logging) : Option Obstacle :=
  logging.directory.bind (Switchboard.obstacle? look)

/-- The notes among some entries that are written. -/
def admitted (logging : Logging) (entries : List Entry) : List Note :=
  (entries.filterMap Entry.note?).filter logging.filter.admits

end Logging

/-! ### Commands -/

/-- The report on a start, over several lines. -/
def reportText (report : StartReport) : String :=
  let texts (items : List String) : List Char := Json.listBlock 1 (items.map Json.quote)
  let dropped := report.dropped.map fun (rule : DroppedRule) =>
    Json.objectBlock 2
      [("rule", Json.quote rule.rule), ("reason", Json.quote rule.reason.message)]
  String.ofList (Json.objectBlock 0
    [("activated", texts report.activated), ("dropped", Json.listBlock 1 dropped),
      ("skipped", texts report.skipped)])

def startingNote : Entry := .note ⟨.info, .service, "Starting logicsrv"⟩

def stoppedNote (summary : Host.Summary) : Entry :=
  .note ⟨.info, .service,
    "Stopped: " ++ toString summary.report.activated.length ++ " rules, " ++
      toString summary.updates ++ " updates, " ++ toString summary.outputs ++ " outputs"⟩

/-- What carrying out a command leaves behind. -/
structure Effect where
  entries : List Entry
  output : String
  failure : Option Failure

/-- Checks the rules of a configuration. -/
def checkRules (budget : Nat) (config : ServiceConfig) : Option Effect :=
  (Host.check budget config).map fun (entries, result) =>
    match result with
    | .error failure => ⟨entries, "", some failure⟩
    | .ok report => ⟨entries, reportText report ++ "\n", none⟩

/-- Compiles an expression. -/
def compileText (text : String) : Effect :=
  let entries := (Input.notes false text).map Entry.note
  match Input.check text with
  | .error e => ⟨entries, "", some ⟨e.message, none⟩⟩
  | .ok polish => ⟨entries, polish ++ "\n", none⟩

/-- Runs the rules over an input; `look` tells what stands at a path. -/
def runRules (budget : Nat) (look : String → Presence) (config : ServiceConfig)
    (input : List UInt8) : Option Effect :=
  (Host.serve budget look config input none none).map fun run =>
    match run.result with
    | .error failure => ⟨startingNote :: run.journal, run.written, some failure⟩
    | .ok summary => ⟨startingNote :: run.journal ++ [stoppedNote summary], run.written, none⟩

/-- Carries out a command. -/
def perform (budget : Nat) (look : String → Presence) (config : ServiceConfig)
    (input : List UInt8) : Command → Option Effect
  | .run => runRules budget look config input
  | .check => checkRules budget config
  | .compile text => some (compileText text)

/-! ### Outcomes -/

/-- How a run of the program ends. -/
inductive Ending where
  | done
  | failed (failure : Failure)
  /-- The command line is refused. -/
  | refused (e : UsageError)
  /-- A text would have to be cut inside a character. -/
  | broken (cut : Text.SplitChar)
  deriving Repr, DecidableEq

/-- The lines about an error that ended the program. -/
def failureLines (failure : Failure) : List String :=
  ["Error: " ++ failure.context] ++
    match failure.cause with
    | none => []
    | some cause => ["", "Caused by:", "    " ++ cause]

namespace Ending

/-- The exit status. -/
def status : Ending → Nat
  | .done => 0
  | .failed _ => 1
  | .refused _ => 2
  | .broken _ => 101

/-- The last lines on the error stream. -/
def lines : Ending → List String
  | .done => []
  | .failed failure => failureLines failure
  | .refused e => failureLines ⟨e.message, none⟩
  | .broken cut => [cut.message]

/-- The ending where there is no configuration. -/
def ofLoadError : LoadError → Ending
  | .split cut => .broken cut
  | e => .failed ⟨e.message, none⟩

def ofFailure? : Option Failure → Ending
  | none => .done
  | some failure => .failed failure

end Ending

structure Outcome where
  output : String
  logging : Option Logging
  entries : List Entry
  ending : Ending

namespace Outcome

/-- The lines of the service log. -/
def logLines (outcome : Outcome) : List String :=
  match outcome.logging with
  | none => []
  | some logging => (logging.admitted outcome.entries).map Note.line

/-- The lines on the error stream before those about the ending. -/
def noteLines (outcome : Outcome) : List String :=
  match outcome.logging with
  | none => []
  | some logging =>
    logging.complaints ++ (logging.admitted outcome.entries).map Note.colouredLine

/-- The lines on the error stream. -/
def errorLines (outcome : Outcome) : List String := outcome.noteLines ++ outcome.ending.lines

/-- The outcome of a run that ends before anything is done. -/
def early (logging : Option Logging) (ending : Ending) : Outcome := ⟨"", logging, [], ending⟩

/-- The outcome of a command that has been carried out. -/
def ofEffect (logging : Logging) (effect : Effect) : Outcome :=
  ⟨effect.output, some logging, logging.notes ++ effect.entries, .ofFailure? effect.failure⟩

end Outcome

/-- The configuration that an invocation refers to; `look` tells what stands at a path. -/
def configure (look : String → Presence) (environment : List Variable)
    (invocation : Invocation) : Except LoadError ServiceConfig :=
  ServiceConfig.load (invocation.config.map fun path => ⟨path, look path⟩) environment

/-- What ends a run before its log is set up. -/
def Logging.ending? (look : String → Presence) (logging : Logging) : Option Ending :=
  match logging.brokenOff, logging.obstacle? look with
  | some cut, _ => some (.broken cut)
  | none, some obstacle => some (.failed ⟨obstacle.message, none⟩)
  | none, none => none

/-- Sets up the log and carries out the command of an invocation. -/
def proceed (budget : Nat) (look : String → Presence) (logging : Logging)
    (config : ServiceConfig) (command : Command) (input : List UInt8) : Option Outcome :=
  match logging.ending? look with
  | some ending => some (.early (some logging) ending)
  | none => (perform budget look config input command).map (.ofEffect logging)

/-- Runs the program. -/
def execute (budget : Nat) (look : String → Presence) (environment : List Variable)
    (arguments : List String) (input : List UInt8) : Option Outcome :=
  match Invocation.read environment arguments with
  | .error e => some (.early none (.refused e))
  | .ok invocation =>
    match configure look environment invocation with
    | .error e => some (.early none (.ofLoadError e))
    | .ok config =>
      proceed budget look (.ofConfig config invocation environment) config invocation.command
        input

end Switchboard.CommandLine
