import Switchboard.Stream.Network
import Switchboard.Log.Journal

/-!
# The signal bus

Signals are named by dotted paths. A bus knows the paths that have been
published to or listened to. Clearing it starts a new generation of paths:
subscriptions to the old ones stay as they are but hear nothing any more.
-/
namespace Switchboard

/-- A path in one generation of the bus. -/
structure Line where
  generation : Nat
  path : String
  deriving Repr, DecidableEq

structure Bus where
  generation : Nat
  paths : List String
  deriving Repr, DecidableEq

namespace Bus

def empty : Bus := ⟨0, []⟩

def line (bus : Bus) (path : String) : Line := ⟨bus.generation, path⟩

/-- Makes a path known. -/
def touch (bus : Bus) (path : String) : Bus :=
  if path ∈ bus.paths then bus else { bus with paths := bus.paths ++ [path] }

/-- Makes several paths known. -/
def touchAll (bus : Bus) (paths : List String) : Bus := paths.foldl touch bus

def clear (bus : Bus) : Bus := ⟨bus.generation + 1, []⟩

end Bus

end Switchboard
