import Switchboard.Bus.Plant
import Switchboard.Rule.Log
import Switchboard.Term.Stream

/-!
# What happens when a rule fires

The rule's tally counts the action, its log and the service log take note of
it, and the value that the output's term gives for the action is offered to
the sink. An output that cannot be driven leaves only an error behind.
-/
namespace Switchboard

/-- The name under which notifications are delivered. -/
def sourceName : String := "switchlogic"

/-- What a firing rule needs to know of itself. -/
structure Drive where
  /-- The place of the rule's tally. -/
  rule : Nat
  description : String
  output : Term
  mode : DeliveryMode
  /-- The directory of the rule's log, if there is one to write to. -/
  log : Option String
  deriving Repr, DecidableEq

namespace Drive

variable {ς : Type}

/-- Writes a line to the rule's log. -/
def writeLog (drive : Drive) (action : Action) (outcome : String) (next : PlantScript ς) :
    PlantScript ς :=
  match drive.log with
  | some directory =>
    .record (RuleLog.lineEntry directory drive.description action outcome) next
  | none => next

def delivery (drive : Drive) (value : Json) : Delivery where
  mode := drive.mode
  source := match drive.mode with
    | .notify => some sourceName
    | .put => none
  path := drive.output.path
  value := value

/-- Notes what became of a delivery. -/
def noteAnswer (drive : Drive) (answer : Answer) : PlantScript ς :=
  match drive.mode, answer with
  | .notify, .refused reason =>
    PlantScript.note .debug .engine
      ("delta update to " ++ drive.output.path ++ " failed: " ++ Answer.refusalText reason) .done
  | .notify, .taken .. => .done
  | .put, .refused reason =>
    PlantScript.note .debug .engine
      ("put request to " ++ drive.output.path ++ " failed: " ++ Answer.refusalText reason) .done
  | .put, .taken response _ =>
    PlantScript.note .debug .engine
      ("put response (" ++ drive.output.path ++ "): " ++ response.line) .done

/-- Offers a value to the sink. -/
def deliver (drive : Drive) (sink : Sink ς) (value : Json) : PlantScript ς :=
  let request := match drive.mode with
    | .notify => "issuing delta update ("
    | .put => "issuing put request ("
  PlantScript.note .debug .engine (request ++ drive.output.path ++ " <= " ++ value.text ++ ")")
    (PlantScript.offer sink (drive.delivery value) drive.noteAnswer)

/-- What an action does when the output gives a value for it, or nothing to deliver. -/
def carryOut (drive : Drive) (sink : Sink ς) (action : Action) (value : Option Json) :
    PlantScript ς :=
  let outcome := match value with
    | some value => RuleLog.deliveryText drive.mode drive.output.path value
    | none => RuleLog.nothingDelivered
  .change (Plant.count drive.rule action)
    (drive.writeLog action outcome
      (match value with
      | some value => drive.deliver sink value
      | none =>
        PlantScript.note .debug .engine
          (drive.description ++ " " ++ action.label ++ ": nothing to deliver") .done))

/-- What is shown when the output cannot be driven. -/
def failure (drive : Drive) (error : RuleError) : String :=
  "internal error - " ++ error.message ++ " on rule " ++ drive.description

/-- What an action of the rule does. -/
def fire (drive : Drive) (sink : Sink ς) (action : Action) : PlantScript ς :=
  let message := "switching " ++ drive.description ++ " " ++ action.label
  PlantScript.note .info .engine message
    (.change (Plant.setMessage message)
      (match drive.output.output action with
      | .ok value => drive.carryOut sink action value
      | .error e =>
        PlantScript.note .error .engine (drive.failure e)
          (drive.writeLog action (drive.failure e)
            (.change (Plant.setError (drive.failure e)) .done))))

end Drive

end Switchboard
