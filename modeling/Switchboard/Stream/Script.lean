import Switchboard.Stream.Basic
import Switchboard.Stream.Handle

/-!
# Scripts

What a listener does with a value it receives: it may look at and change a
memory shared by all listeners, put entries into the journal, publish, and
attach and detach subscriptions. A script goes on when what it asked for has
been done.
-/
namespace Switchboard

/--
`κ`, `ν` and `ρ` are the keys, values and journal entries, `σ` the memory that
listeners share.
-/
inductive Script (κ ν ρ σ : Type) : Type 1 where
  | done
  | record (entry : ρ) (next : Script κ ν ρ σ)
  | change (f : σ → σ) (next : Script κ ν ρ σ)
  | consult (next : σ → Script κ ν ρ σ)
  /-- Goes on with the number of listeners that the value goes to. -/
  | publish (key : κ) (value : ν) (next : Nat → Script κ ν ρ σ)
  | subscribe {α : Type} (stream : Stream κ ν ρ α) (listener : α → Script κ ν ρ σ)
      (next : Handle κ → Script κ ν ρ σ)
  | detach (registrations : List (Registration κ)) (next : Script κ ν ρ σ)

namespace Script

variable {κ ν ρ σ : Type}

/-- One script after another. -/
def followedBy : Script κ ν ρ σ → Script κ ν ρ σ → Script κ ν ρ σ
  | .done, later => later
  | .record entry next, later => .record entry (next.followedBy later)
  | .change f next, later => .change f (next.followedBy later)
  | .consult next, later => .consult fun memory => (next memory).followedBy later
  | .publish key value next, later => .publish key value fun n => (next n).followedBy later
  | .subscribe stream listener next, later =>
    .subscribe stream listener fun handle => (next handle).followedBy later
  | .detach registrations next, later => .detach registrations (next.followedBy later)

end Script

end Switchboard
