import Switchboard.Json.Value

/-!
# Deliveries

What a rule's firing sends out: a value for a path, either as a notification
on behalf of a source or as a request to a device, which answers with a
status.
-/
namespace Switchboard

inductive DeliveryMode where
  | notify
  | put
  deriving Repr, DecidableEq

def DeliveryMode.word : DeliveryMode → String
  | .notify => "notify"
  | .put => "put"

/-- Only notifications name their source. -/
structure Delivery where
  mode : DeliveryMode
  source : Option String
  path : String
  value : Json

/-- The outcome of a request to a device. -/
structure PutResponse where
  status : Nat
  message : Option String
  deriving Repr, DecidableEq

namespace PutResponse

def completed : PutResponse := ⟨200, none⟩

def failed (status : Nat) (message : String) : PutResponse := ⟨status, some message⟩

def isSuccess (response : PutResponse) : Bool := 200 ≤ response.status && response.status < 300

/-- The largest status. -/
def maxStatus : Nat := 65535

end PutResponse

end Switchboard
