import Switchboard.Term.Basic

/-!
# What a rule does

A rule drives its output towards its input. Whenever the two differ it fires
the action that would make them agree, and the output's term says which value
is delivered for the action.
-/
namespace Switchboard

inductive Action where
  | turnOn
  | turnOff
  deriving Repr, DecidableEq

namespace Action

def label : Action → String
  | .turnOn => "ON"
  | .turnOff => "OFF"

/-- The action for a joint state of input and output, if they differ. -/
def decide : Bool → Bool → Option Action
  | true, false => some .turnOn
  | false, true => some .turnOff
  | _, _ => none

end Action

/-- The action that a rule fired last. -/
inductive RuleState where
  | inactive
  | off
  | on
  deriving Repr, DecidableEq

namespace RuleState

def label : RuleState → String
  | .inactive => "INACTIVE"
  | .off => "OFF"
  | .on => "ON"

def after : Action → RuleState
  | .turnOn => .on
  | .turnOff => .off

end RuleState

/-- What a notification carries. -/
def notificationValue (message : Option String) (state : Option String) (methods : List String)
    (action : Action) : Json :=
  .ofMembers
    [("message", .string (match message with
      | some m => m ++ " (" ++ action.label ++ ")"
      | none => action.label ++ " state")),
     ("state", .string (state.getD "normal")),
     ("method", .array (methods.map .string))]

/-- The plain value that switches a signal on or off. -/
def plainValue : Action → Json
  | .turnOn => .int 1
  | .turnOff => .int 0

/--
The value to deliver for an action. A notification without an off state has
nothing to be cancelled to; constants cannot be driven.
-/
def Term.output (term : Term) (action : Action) : Except RuleError (Option Json) :=
  match term, action with
  | .off, _ | .on, _ => .error (.badOutputType term.kind)
  | .switch .., _ => .ok (some (plainValue action))
  | .notification _ onState _ message methods, .turnOn =>
    .ok (some (notificationValue message onState methods .turnOn))
  | .notification _ _ none _ _, .turnOff => .ok none
  | .notification _ _ (some offState) message methods, .turnOff =>
    .ok (some (notificationValue message (some offState) methods .turnOff))
  | .signal _ (.substitute onValue _), .turnOn => .ok (some (.ofLiteral onValue))
  | .signal _ (.substitute _ offValue), .turnOff => .ok (some (.ofLiteral offValue))
  | .signal _ .present, _ | .signal _ (.compare ..), _ => .ok (some (plainValue action))

end Switchboard
