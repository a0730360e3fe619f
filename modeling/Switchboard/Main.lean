import Switchboard.CommandLine.Outcome

/-!
# The program `logicsrv`

Reads the surroundings, hands them to the commands and writes what they leave
behind. While rules run, every line of input is taken as soon as it is there.
-/
namespace Switchboard.CommandLine

/-- Enough steps for everything that comes to an end. -/
def patience : Nat := 1000000000000000000

/-- The number of bytes that are asked for at once. -/
def portion : USize := 4096

/-- The error of rules that set each other off without end. -/
def restless : IO.Error := IO.userError "the rules do not come to rest"

/-- Where notes, deliveries and logs of rules are written. -/
structure Desk where
  logging : Logging
  log : Option IO.FS.Handle
  /-- The directory of all logs of rules. -/
  rules : String

def appendLine (path line : String) : IO Unit := do
  let handle ← IO.FS.Handle.mk path .append
  handle.putStrLn line

def Desk.open (logging : Logging) (config : ServiceConfig) : IO Desk := do
  let log ← logging.directory.mapM fun (directory : String) => do
    unless directory = "" do IO.FS.createDirAll directory
    IO.FS.Handle.mk (pathWithin directory "logicsrv.log") .append
  return ⟨logging, log, RuleLog.rootUnder (config.ruleLogRoot?.getD "")⟩

def Desk.writeNote (desk : Desk) (note : Note) : IO Unit := do
  (← IO.getStderr).putStrLn note.colouredLine
  desk.log.forM fun handle => handle.putStrLn note.line

def Desk.writeNotes (desk : Desk) (entries : List Entry) : IO Unit :=
  (desk.logging.admitted entries).forM desk.writeNote

def Desk.writeRuleLog (desk : Desk) : Entry → IO Unit
  | .ruleLog directory => IO.FS.createDirAll (pathWithin desk.rules directory)
  | .ruleLine directory line =>
    appendLine (pathWithin (pathWithin desk.rules directory) "rule.log") line
  | _ => return ()

/-- Writes everything that can be seen of a running service. -/
def Desk.write (desk : Desk) (entries : List Entry) : IO Unit := do
  desk.writeNotes entries
  entries.forM desk.writeRuleLog
  let output ← IO.getStdout
  output.putStr (Host.written (entries.filterMap Entry.delivery?))
  output.flush

/-- Writes how the program ends; the result is its exit status. -/
def finish (ending : Ending) : IO UInt32 := do
  let errors ← IO.getStderr
  ending.lines.forM errors.putStrLn
  return ending.status.toUInt32

/-- Takes lines one after the other and goes on with the service after them. -/
def takeLines (desk : Desk) (next : Host.Service → IO UInt32) :
    Host.Service → List (List UInt8) → IO UInt32
  | service, [] => next service
  | service, line :: rest =>
    match service.take patience line with
    | none => throw restless
    | some service => do
      desk.write service.flush.1
      takeLines desk next service.flush.2 rest

/-- Ends a service at the end of its input. -/
def closeService (desk : Desk) (service : Host.Service) : IO UInt32 := do
  let closed := service.close false none
  desk.write closed.1.journal
  match closed.2 with
  | .ok summary => desk.write [stoppedNote summary]; finish .done
  | .error failure => finish (.failed failure)

/-- Takes the input as it arrives; `held` is the beginning of a line. -/
partial def takeInput (desk : Desk) (input : IO.FS.Stream) (held : List UInt8)
    (service : Host.Service) : IO UInt32 := do
  if service.failed then closeService desk service
  else
    let bytes ← input.read portion
    if bytes.isEmpty then takeLines desk (closeService desk) service (Host.lines held)
    else
      let parts := Host.cut (held ++ bytes.toList)
      takeLines desk (takeInput desk input parts.2) service parts.1

/-- Runs the rules over the standard input. -/
def serveInput (desk : Desk) (look : String → Presence) (config : ServiceConfig) :
    IO UInt32 := do
  desk.write [startingNote]
  let input ← IO.getStdin
  match Host.Service.opened patience look config with
  | none => throw restless
  | some (.error stopped) =>
    desk.write stopped.1.journal
    finish (.failed stopped.2)
  | some (.ok service) =>
    desk.write service.flush.1
    takeInput desk input [] service.flush.2

/-- Carries out a command that needs no input. -/
def carryOut (desk : Desk) (look : String → Presence) (config : ServiceConfig)
    (command : Command) : IO UInt32 := do
  match perform patience look config [] command with
  | none => throw restless
  | some effect =>
    desk.writeNotes effect.entries
    (← IO.getStdout).putStr effect.output
    finish (.ofFailure? effect.failure)

/-- The variables of the environment. -/
def readEnvironment : IO (List Variable) := do
  let bytes ← IO.FS.withFile "/proc/self/environ" .read fun handle => handle.readBinToEnd
  return Variable.ofBytes bytes.toList

/-- What stands at a path. -/
def readPresence (path : String) : IO Presence := do
  match ← (IO.FS.Handle.mk path .read).toBaseIO with
  | .error _ => return .nothing
  | .ok handle =>
    match ← handle.readBinToEnd.toBaseIO with
    | .error _ => return .directory
    | .ok bytes => return (String.fromUTF8? bytes).elim .unreadable .file

/-- What stands at some paths; at all others there is nothing. -/
def readPresences (paths : List String) : IO (String → Presence) := do
  let seen ← paths.mapM fun path => return (path, ← readPresence path)
  return fun path => (seen.lookup path).getD .nothing

/-- The paths that the logs of rules depend on. -/
def rulePaths (config : ServiceConfig) : List String :=
  config.ruleLogRoot?.toList.flatMap fun root =>
    config.engine.rules.zipIdx.flatMap fun (rule, index) =>
      let name := RuleLog.directoryName (rule.key index)
      (descent (pathWithin (RuleLog.rootUnder root) name)).map (·.2)

/-- The paths that the service log depends on. -/
def logPaths (logging : Logging) : List String :=
  logging.directory.toList.flatMap fun directory => (descent directory).map (·.2)

/-- Carries out a command whose log can be set up. -/
def serve (logging : Logging) (look : String → Presence) (config : ServiceConfig)
    (command : Command) : IO UInt32 := do
  let desk ← Desk.open logging config
  desk.writeNotes logging.notes
  match command with
  | .run => serveInput desk look config
  | command => carryOut desk look config command

def start (environment : List Variable) (invocation : Invocation) : IO UInt32 := do
  match configure (← readPresences invocation.config.toList) environment invocation with
  | .error e => finish (.ofLoadError e)
  | .ok config =>
    let logging := Logging.ofConfig config invocation environment
    logging.complaints.forM fun line => do (← IO.getStderr).putStrLn line
    let look ← readPresences (logPaths logging ++ rulePaths config)
    match logging.ending? look with
    | some ending => finish ending
    | none => serve logging look config invocation.command

end Switchboard.CommandLine

open Switchboard.CommandLine

def main (arguments : List String) : IO UInt32 := do
  let environment ← readEnvironment
  match Invocation.read environment arguments with
  | .error e => finish (.refused e)
  | .ok invocation => start environment invocation
