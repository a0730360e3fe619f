import Switchboard.Config.File
import Switchboard.Config.Service
import Switchboard.Config.Variable

/-!
# Loading the configuration

Settings come in three layers: the defaults, a file and the environment. Each
is laid over the one before, and only the result is read as a configuration.
-/
namespace Switchboard

/-- Why no configuration could be loaded. -/
inductive LoadError where
  | notFound (path : String)
  | withoutExtension (path : String)
  | unsupported (extension : String)
  /-- A text in the environment would have to be cut inside a character. -/
  | split (cut : Text.SplitChar)
  | invalid
  deriving Repr, DecidableEq

def LoadError.message : LoadError → String
  | .notFound path => "Config file not found: " ++ path
  | .withoutExtension path => "Config file must have an extension: " ++ path
  | .unsupported extension => "Unsupported config file format: " ++ extension
  | .split cut => cut.message
  | .invalid => "Failed to load configuration"

/-- The settings in what stands at a path, read as a file of a given format. -/
def Presence.settings? (format : FileFormat) : Presence → Option Setting
  | .file content => format.settings? content
  | .unreadable => none
  | .nothing | .directory => some (.table [])

/-- The format of a file, which has to be there. -/
def ConfigFile.format (file : ConfigFile) : Except LoadError FileFormat :=
  if file.presence = .nothing then .error (.notFound file.path)
  else match file.extension? with
    | none => .error (.withoutExtension file.path)
    | some extension =>
      match FileFormat.ofExtension? extension with
      | none => .error (.unsupported extension)
      | some format => .ok format

namespace ServiceConfig

/-- Of a row of logging settings only as many count as there are. -/
def trimmed : Setting → Setting
  | .list items => .list (items.take LoggingConfig.fieldNames.length)
  | setting => setting

/-- The name of the section that is read as it is. -/
def loggingName : String := "logging"

/-- A member of the settings as a document. -/
def memberDocument (member : String × Setting) : Json.Member :=
  if member.1 = loggingName then (some member.1, (trimmed member.2).document .direct)
  else (some member.1, member.2.document .gathered)

/-- The configuration that settings amount to. -/
def ofSetting? : Setting → Option ServiceConfig
  | .table members => ofDocument? (.object (members.map memberDocument))
  | _ => none

/-- The configuration that settings laid over the defaults amount to. -/
def ofLayers? (file environment : Setting) : Option ServiceConfig :=
  ofSetting? (((Setting.ofJson defaults.toJson).overlay file).overlay environment)

/-- The settings of the environment. -/
def environmentSettings (environment : List Variable) : Except LoadError Setting :=
  (Variable.settings environment).mapError LoadError.split

/--
Loads the configuration from a file, if there is one, and the environment. What a file holds
matters only if the environment can be read.
-/
def load (file : Option ConfigFile) (environment : List Variable) :
    Except LoadError ServiceConfig := do
  let lower ← match file with
    | none => pure (some (.table []))
    | some file => (file.format).map file.presence.settings?
  let upper ← environmentSettings environment
  match lower.bind fun lower => ofLayers? lower upper with
  | some config => return config
  | none => throw .invalid

end ServiceConfig

end Switchboard
