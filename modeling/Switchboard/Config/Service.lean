import Switchboard.Rule.Config

/-!
# Configuration of the service
-/
namespace Switchboard

open Json

structure LoggingConfig where
  /-- The filter for the service log when nothing else sets one. -/
  level : String
  /-- Where logs are kept. -/
  dir : Option String
  /-- Whether every rule keeps a log. -/
  ruleLogs : Bool
  deriving Repr, DecidableEq

structure ServiceConfig where
  logging : LoggingConfig
  /-- Whether delivered values are reported back on the bus. -/
  loopback : Bool
  engine : EngineConfig
  deriving Repr, DecidableEq

namespace LoggingConfig

def defaults : LoggingConfig := ⟨"info", none, false⟩

def fieldNames : FieldNames := [["level"], ["dir"], ["rule_logs"]]

def ofFields? : Fields → Option LoggingConfig
  | [level, dir, ruleLogs] =>
    match Document.orDefault? defaults.level Document.string? level,
      Document.orDefault? none (Document.optional? Document.string?) dir,
      Document.orDefault? false Document.bool? ruleLogs with
    | some level, some dir, some ruleLogs => some ⟨level, dir, ruleLogs⟩
    | _, _, _ => none
  | _ => none

def ofDocument? (document : Document) : Option LoggingConfig :=
  (fields? fieldNames document).bind ofFields?

def toJson (config : LoggingConfig) : Json :=
  .ofMembers ([("level", .string config.level), ("rule_logs", .bool config.ruleLogs)] ++
    RuleConfig.optionalMember "dir" config.dir)

end LoggingConfig

namespace ServiceConfig

def defaults : ServiceConfig := ⟨.defaults, true, ⟨EngineConfig.defaultUsePut, []⟩⟩

/-- The settings of the engine stand among those of the service. -/
def fieldNames : FieldNames := [["logging"], ["loopback"]] ++ EngineConfig.fieldNames

def ofFields? : Fields → Option ServiceConfig
  | logging :: loopback :: engine =>
    match Document.orDefault? .defaults LoggingConfig.ofDocument? logging,
      Document.orDefault? true Document.bool? loopback,
      EngineConfig.ofFields? engine with
    | some logging, some loopback, some engine => some ⟨logging, loopback, engine⟩
    | _, _, _ => none
  | _ => none

/-- A configuration is written as an object only. -/
def ofDocument? : Document → Option ServiceConfig
  | .object members => (fieldsOfMembers? fieldNames members).bind ofFields?
  | _ => none

def ofValue? (value : Json) : Option ServiceConfig := ofDocument? (.ofValue value)

def toJson (config : ServiceConfig) : Json :=
  .ofMembers ([("logging", config.logging.toJson), ("loopback", .bool config.loopback)] ++
    config.engine.toMembers)

/-- The directory that the logs of rules are kept under, if they are kept. -/
def ruleLogRoot? (config : ServiceConfig) : Option String :=
  if config.logging.ruleLogs then some (config.logging.dir.getD "logs") else none

end ServiceConfig

end Switchboard
