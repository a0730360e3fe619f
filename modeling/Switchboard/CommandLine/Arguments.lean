import Switchboard.Config.Variable

/-!
# The command line

`logicsrv [-c FILE] [-l LEVEL] [run | check | compile EXPRESSION]`. Options
stand before the command and at most once; without a command the rules are
run. The configuration file may also be named by the environment.
-/
namespace Switchboard.CommandLine

inductive Command where
  | run
  | check
  | compile (expression : String)
  deriving Repr, DecidableEq

inductive OptionName where
  | config
  | level
  deriving Repr, DecidableEq

/-- What is asked of the program. -/
structure Invocation where
  config : Option String
  level : Option String
  command : Command
  deriving Repr, DecidableEq

/-- Why a command line is refused. -/
inductive UsageError where
  | withoutValue (option : OptionName)
  | repeated (option : OptionName)
  | withoutExpression
  | unexpected (argument : String)
  deriving Repr, DecidableEq

namespace OptionName

def long : OptionName → String
  | .config => "--config"
  | .level => "--log-level"

def short : OptionName → String
  | .config => "-c"
  | .level => "-l"

end OptionName

def UsageError.message : UsageError → String
  | .withoutValue option => "a value is required for '" ++ option.long ++ "'"
  | .repeated option => "'" ++ option.long ++ "' cannot be used multiple times"
  | .withoutExpression => "an expression is required"
  | .unexpected argument => "unexpected argument '" ++ argument ++ "'"

/-- A word that is no option. -/
def isWord (argument : String) : Bool :=
  match argument.toList with
  | '-' :: _ :: _ => false
  | _ => true

/-- The rest of a text after a beginning. -/
def rest? (beginning : String) (text : String) : Option String :=
  if beginning.toList.isPrefixOf text.toList then
    some (String.ofList (text.toList.drop beginning.length))
  else none

/-- The value written with an option, as in `--config=FILE` and `-cFILE`. -/
def attached? (option : OptionName) (argument : String) : Option String :=
  match rest? (option.long ++ "=") argument with
  | some value => some value
  | none =>
    match rest? (option.short ++ "=") argument with
    | some value => some value
    | none => rest? option.short argument

/-- Reads one argument as an option: which it is, and a value written with it. -/
def option? (argument : String) : Option (OptionName × Option String) :=
  [OptionName.config, .level].findSome? fun option =>
    if argument = option.long ∨ argument = option.short then some (option, none)
    else (attached? option argument).map fun value => (option, some value)

/-- Sets an option that is not yet set. A file has to have a name. -/
def set (option : OptionName) (value : String) (given : Invocation) :
    Except UsageError Invocation :=
  match option with
  | .config =>
    if given.config.isSome then .error (.repeated .config)
    else if value = "" then .error (.withoutValue .config)
    else .ok { given with config := some value }
  | .level =>
    if given.level.isSome then .error (.repeated .level)
    else .ok { given with level := some value }

/-- Takes the options at the head of the arguments. -/
def takeOptions : Invocation → List String → Except UsageError (Invocation × List String)
  | given, [] => .ok (given, [])
  | given, argument :: rest =>
    match option? argument with
    | none => .ok (given, argument :: rest)
    | some (option, some value) =>
      match set option value given with
      | .error e => .error e
      | .ok given => takeOptions given rest
    | some (option, none) =>
      match rest with
      | [] => .error (.withoutValue option)
      | value :: rest =>
        if !isWord value then .error (.withoutValue option)
        else match set option value given with
          | .error e => .error e
          | .ok given => takeOptions given rest

/-- The mark after which no option is looked for. -/
def endOfOptions : String := "--"

/-- A command without arguments. -/
def alone (command : Command) : List String → Except UsageError Command
  | [] => .ok command
  | argument :: rest =>
    if argument = endOfOptions ∧ rest = [] then .ok command else .error (.unexpected argument)

/-- The one expression after the word for compiling. -/
def expression : List String → Except UsageError Command
  | [] => .error .withoutExpression
  | first :: rest =>
    if first = endOfOptions then
      match rest with
      | [] => .error .withoutExpression
      | [text] => .ok (.compile text)
      | _ :: other :: _ => .error (.unexpected other)
    else if !isWord first then .error (.unexpected first)
    else alone (.compile first) rest

def commandOf : List String → Except UsageError Command
  | [] => .ok .run
  | word :: rest =>
    if word = "run" then alone .run rest
    else if word = "check" then alone .check rest
    else if word = "compile" then expression rest
    else alone .run (word :: rest)

/-- The variable that may name the configuration file. -/
def configVariable : String := "LOGICSRV_CONFIG"

/-- The value of a variable. -/
def valueOf? (name : String) (environment : List Variable) : Option String :=
  (environment.find? (·.name = name)).map (·.value)

/-- Takes the configuration file from the environment if no option names one. -/
def withEnvironment (environment : List Variable) (given : Invocation) :
    Except UsageError Invocation :=
  match given.config, valueOf? configVariable environment with
  | none, some value => set .config value given
  | _, _ => .ok given

/-- What a command line asks for. -/
def Invocation.read (environment : List Variable) (arguments : List String) :
    Except UsageError Invocation :=
  match takeOptions ⟨none, none, .run⟩ arguments with
  | .error e => .error e
  | .ok (given, rest) =>
    match commandOf rest with
    | .error e => .error e
    | .ok command => withEnvironment environment { given with command := command }

end Switchboard.CommandLine
