import Switchboard.Stream.Basic

/-!
# Handles of subscriptions

A subscription leaves one registration with every subject it listens to. Its
handle keeps them until it is closed; closing hands them out, once. Handles may
be merged, which makes one open handle of what both still keep.
-/
namespace Switchboard

/-- A leaf of a subscription among the listeners of a subject. -/
structure Registration (κ : Type) where
  subject : κ
  subscription : Nat
  leaf : Nat
  deriving DecidableEq

structure Handle (κ : Type) where
  registrations : List (Registration κ)
  closed : Bool
  deriving DecidableEq

namespace Handle

variable {κ : Type}

/-- The handle after it has been closed. -/
def close (_ : Handle κ) : Handle κ := ⟨[], true⟩

/-- The registrations to take back when a handle is closed. -/
def released (handle : Handle κ) : List (Registration κ) :=
  if handle.closed then [] else handle.registrations

/-- One open handle for what two handles keep. -/
def merge (a b : Handle κ) : Handle κ := ⟨a.registrations ++ b.registrations, false⟩

end Handle

/-- The registrations of leaves that are numbered from `leaf` on. -/
def registrationsFrom {κ : Type} (subscription : Nat) : Nat → List (Leaf κ) →
    List (Registration κ)
  | _, [] => []
  | leaf, .subject key :: leaves =>
    ⟨key, subscription, leaf⟩ :: registrationsFrom subscription (leaf + 1) leaves
  | leaf, .own :: leaves => registrationsFrom subscription (leaf + 1) leaves

/-- The handle of a subscription: all its leaves at subjects. -/
def Stream.handle {κ ν ρ α : Type} (stream : Stream κ ν ρ α) (subscription : Nat) : Handle κ :=
  ⟨registrationsFrom subscription 0 stream.leaves, false⟩

end Switchboard
