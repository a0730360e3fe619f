import Switchboard.Bus.Line
import Switchboard.Rule.Action
import Switchboard.Rule.Config

/-!
# The plant that rules work in

What all listeners share: the bus, the sink that takes deliveries, the lines
shown to an operator and the tallies of the active rules. Publishing and
delivering are scripts over it.
-/
namespace Switchboard

/-- The message and the error shown to an operator. -/
structure Board where
  message : Option String
  lastError : Option String
  deriving Repr, DecidableEq

/-- How often a rule has fired which action, and what it fired last. -/
structure Tally where
  state : RuleState
  onCount : Nat
  offCount : Nat
  deriving Repr, DecidableEq

namespace Tally

def zero : Tally := ⟨.inactive, 0, 0⟩

def count (tally : Tally) : Action → Tally
  | .turnOn => ⟨.on, tally.onCount + 1, tally.offCount⟩
  | .turnOff => ⟨.off, tally.onCount, tally.offCount + 1⟩

end Tally

/-- What a sink says to a delivery. -/
inductive Answer where
  | refused (reason : String)
  /-- The response of a device, and whether the value is to be reported back on the bus. -/
  | taken (response : PutResponse) (echo : Bool)
  deriving Repr, DecidableEq

namespace Answer

/-- Why a delivery was refused, as it is shown. -/
def refusalText (reason : String) : String := "Sink closed: " ++ reason

end Answer

/-- Something that takes deliveries; `ς` is what it remembers. -/
structure Sink (ς : Type) where
  offer : ς → Delivery → ς × Answer
  /-- Whether it acknowledges a delivery before it reports the value back. -/
  prompt : Bool

/-- A sink that answers every request alike and may stop taking deliveries. -/
structure Outlet where
  /-- How many deliveries it still takes, if that is limited. -/
  allowance : Option Nat
  /-- Why it takes no more. -/
  reason : String
  /-- Whether it reports delivered values back on the bus. -/
  loopback : Bool
  response : PutResponse
  deriving Repr, DecidableEq

namespace Outlet

def limited (allowance : Option Nat) (reason : String) (loopback : Bool) : Outlet :=
  ⟨allowance, reason, loopback, .completed⟩

/-- An outlet that takes no more. -/
def close (outlet : Outlet) : Outlet := { outlet with allowance := some 0 }

/-- A notification is always taken to succeed. -/
def answer (outlet : Outlet) (delivery : Delivery) : Answer :=
  .taken outlet.response (outlet.loopback &&
    (delivery.mode == .notify || outlet.response.isSuccess))

def offer (outlet : Outlet) (delivery : Delivery) : Outlet × Answer :=
  match outlet.allowance with
  | none => (outlet, outlet.answer delivery)
  | some 0 => (outlet, .refused outlet.reason)
  | some (n + 1) => ({ outlet with allowance := some n }, outlet.answer delivery)

/-- The sink that reports a value back as soon as it has handed the delivery on. -/
def sink : Sink Outlet := ⟨offer, false⟩

/-- The sink that keeps deliveries itself, and acknowledges them first. -/
def memory : Sink Outlet := ⟨offer, true⟩

end Outlet

structure Plant (ς : Type) where
  bus : Bus
  board : Board
  /-- One tally for each active rule. -/
  tallies : List Tally
  sink : ς
  /-- The number of listeners reported for the last publication from outside. -/
  audience : Nat
  deriving Repr

namespace Plant

variable {ς : Type}

def start (sink : ς) : Plant ς := ⟨.empty, ⟨none, none⟩, [], sink, 0⟩

def setMessage (message : String) (plant : Plant ς) : Plant ς :=
  { plant with board := { plant.board with message := some message } }

def setError (message : String) (plant : Plant ς) : Plant ς :=
  { plant with board := { plant.board with lastError := some message } }

/-- Counts an action of the rule with a given number. -/
def count (rule : Nat) (action : Action) (plant : Plant ς) : Plant ς :=
  { plant with tallies := plant.tallies.modify rule (·.count action) }

end Plant

/-- What is done over a plant. -/
abbrev PlantScript (ς : Type) := Script Line Json Entry (Plant ς)

/-- The network of a plant. -/
abbrev PlantNetwork (ς : Type) := Network Line Json Entry (Plant ς)

namespace PlantScript

variable {ς : Type}

def note (level : Level) (origin : Origin) (text : String) (next : PlantScript ς) :
    PlantScript ς :=
  .record (.note ⟨level, origin, text⟩) next

/-- Publishes a value at a path of the bus. -/
def publish (path : String) (value : Json) (next : Nat → PlantScript ς) : PlantScript ς :=
  note .trace .bus ("publish " ++ path ++ " = " ++ value.text)
    (.change (fun plant => { plant with bus := plant.bus.touch path })
      (.consult fun plant => .publish (plant.bus.line path) value next))

/-- Reports a value back on the bus if the sink's answer asks for it. -/
def echo (delivery : Delivery) (answer : Answer) (next : PlantScript ς) : PlantScript ς :=
  match answer with
  | .taken _ true => publish delivery.path delivery.value fun _ => next
  | _ => next

/-- Hears the sink's answer, and reports the value back, in the order that the sink keeps to. -/
def acknowledge (sink : Sink ς) (delivery : Delivery) (answer : Answer) (next : PlantScript ς) :
    PlantScript ς :=
  if sink.prompt then next.followedBy (echo delivery answer .done) else echo delivery answer next

/-- Offers a delivery to the sink; what it takes is in the journal before it is reported back. -/
def offer (sink : Sink ς) (delivery : Delivery) (next : Answer → PlantScript ς) :
    PlantScript ς :=
  .consult fun plant =>
    let (remembered, answer) := sink.offer plant.sink delivery
    .change (fun plant => { plant with sink := remembered })
      (match answer with
      | .refused _ => next answer
      | .taken .. => .record (.delivered delivery) (acknowledge sink delivery answer (next answer)))

end PlantScript

end Switchboard
