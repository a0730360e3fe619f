import Switchboard.Json.Fields
import Switchboard.Json.Printer
import Switchboard.Rule.Delivery

/-!
# Configuration of rules

Rules are read from documents and written back as JSON values. Input and
output are optional, so that an incomplete rule can be reported on its own
instead of spoiling the whole configuration.
-/
namespace Switchboard

open Json

/-- A single rule as configured. -/
structure RuleConfig where
  id : Option String
  input : Option String
  output : Option String
  description : Option String
  usePut : Bool
  enabled : Bool
  deriving Repr, DecidableEq

namespace RuleConfig

/-- The description, or else what the rule says. -/
def displayName (rule : RuleConfig) : String :=
  match rule.description with
  | some description =>
    if description = "" then rule.input.getD "" ++ " => " ++ rule.output.getD ""
    else description
  | none => rule.input.getD "" ++ " => " ++ rule.output.getD ""

def fieldNames : FieldNames :=
  [["id"], ["input"], ["output"], ["description"], ["usePut", "use_put"], ["enabled"]]

def ofFields? : Fields → Option RuleConfig
  | [id, input, output, description, usePut, enabled] =>
    match Document.orDefault? none (Document.optional? Document.string?) id,
      Document.orDefault? none (Document.optional? Document.string?) input,
      Document.orDefault? none (Document.optional? Document.string?) output,
      Document.orDefault? none (Document.optional? Document.string?) description,
      Document.orDefault? false Document.bool? usePut,
      Document.orDefault? true Document.bool? enabled with
    | some id, some input, some output, some description, some usePut, some enabled =>
      some ⟨id, input, output, description, usePut, enabled⟩
    | _, _, _, _, _, _ => none
  | _ => none

def ofDocument? (document : Document) : Option RuleConfig :=
  (fields? fieldNames document).bind ofFields?

/-- An optional member that is left out when absent. -/
def optionalMember (name : String) : Option String → List (String × Json)
  | some s => [(name, .string s)]
  | none => []

/-- A member that is null when absent. -/
def nullableMember (name : String) : Option String → String × Json
  | some s => (name, .string s)
  | none => (name, .null)

def toJson (rule : RuleConfig) : Json :=
  .ofMembers (optionalMember "id" rule.id ++
    [nullableMember "input" rule.input, nullableMember "output" rule.output] ++
    optionalMember "description" rule.description ++
    [("usePut", .bool rule.usePut), ("enabled", .bool rule.enabled)])

end RuleConfig

/--
The rules, and the beginnings of the paths that are driven by requests rather than notifications.
-/
structure EngineConfig where
  usePut : List String
  rules : List RuleConfig
  deriving Repr, DecidableEq

namespace EngineConfig

def defaultUsePut : List String := ["electrical.switches."]

/-- Whether an output at a path is driven by requests. -/
def putsTo (config : EngineConfig) (path : String) : Bool :=
  config.usePut.any fun start => start.toList.isPrefixOf path.toList

def fieldNames : FieldNames := [["usePut", "use_put"], ["rules"]]

def ofFields? : Fields → Option EngineConfig
  | [usePut, rules] =>
    match Document.orDefault? defaultUsePut (Document.list? Document.string?) usePut,
      Document.orDefault? [] (Document.list? RuleConfig.ofDocument?) rules with
    | some usePut, some rules => some ⟨usePut, rules⟩
    | _, _ => none
  | _ => none

def ofDocument? (document : Document) : Option EngineConfig :=
  (fields? fieldNames document).bind ofFields?

def toMembers (config : EngineConfig) : List (String × Json) :=
  [("usePut", .array (config.usePut.map .string)),
   ("rules", .array (config.rules.map RuleConfig.toJson))]

def toJson (config : EngineConfig) : Json := .ofMembers config.toMembers

end EngineConfig

namespace PutResponse

def fieldNames : FieldNames := [["state"], ["statusCode"], ["message"]]

/-- The one state of a response, alone or as the name of a member that holds null. -/
def completedState? : Document → Option Unit
  | .string (some "COMPLETED") => some ()
  | .object [(some "COMPLETED", .null)] => some ()
  | _ => none

def ofFields? : Fields → Option PutResponse
  | [state, status, message] =>
    match Document.required? completedState? state,
      Document.required? (Document.natUpTo? maxStatus) status,
      Document.orDefault? none (Document.optional? Document.string?) message with
    | some (), some status, some message => some ⟨status, message⟩
    | _, _, _ => none
  | _ => none

def ofDocument? (document : Document) : Option PutResponse :=
  (fields? fieldNames document).bind ofFields?

/-- The members of a response in the order in which they are written. -/
def members (response : PutResponse) : List (String × Json) :=
  [("state", .string "COMPLETED"), ("statusCode", .int response.status)] ++
    RuleConfig.optionalMember "message" response.message

def toJson (response : PutResponse) : Json := .ofMembers response.members

/-- The text of a response. -/
def line (response : PutResponse) : String := writtenMembers response.members

end PutResponse

namespace Delivery

/-- The members of a delivery in the order in which they are written. -/
def members (delivery : Delivery) : List (String × Json) :=
  ("mode", .string delivery.mode.word) ::
    RuleConfig.optionalMember "source" delivery.source ++
    [("path", .string delivery.path), ("value", delivery.value)]

/-- The line that reports a delivery. -/
def line (delivery : Delivery) : String := writtenMembers delivery.members

end Delivery

end Switchboard
