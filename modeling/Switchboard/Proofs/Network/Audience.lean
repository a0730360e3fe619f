import Mathlib.Data.List.Nodup
import Switchboard.Proofs.Network.Quiet

/-!
# Whom a value goes to

A value goes to those who listen when it sets out, and to each of them once.
Whoever joins while it is on its way has it as the latest value instead, and
whoever leaves is reached all the same. The number that a publisher goes on
with is that of the listeners of its value, if no other value sets out before
it goes on. A publisher that finds the subject busy goes on at once, with the
number of those who listen then.
-/
namespace Switchboard

variable {κ ν ρ σ : Type} [DecidableEq κ]

open Event

namespace Event

/-- A value sets out from a subject. -/
def SetsOut (key : κ) : Event κ ν → Prop
  | .setOut place _ => place = key
  | _ => False

/-- A value sets out, and what happens from then on until the next one does is its fan-out. -/
structure OnItsWay (key : κ) (value : ν) (events waited fan others : List (Event κ ν)) : Prop where
  place : events = waited ++ .setOut key value :: (fan ++ others)
  alone : departures key fan = []
  ends : ∀ event ∈ others.head?, event.SetsOut key

/-- A value that does not wait has nothing before it but its publication. -/
theorem OnItsWay.at_once {key : κ} {value : ν} {after waited fan others : List (Event κ ν)}
    (way : OnItsWay key value (.published key value :: .setOut key value :: after) waited fan others)
    (first : departures key waited = []) : waited = [.published key value] := by
  have split := way.place
  cases waited with
  | nil => exact nomatch (List.cons.inj split).1
  | cons event waited =>
    obtain ⟨rfl, split'⟩ := List.cons.inj split
    cases waited with
    | nil => rfl
    | cons event waited =>
      obtain ⟨rfl, _⟩ := List.cons.inj split'
      simp [sent?] at first

end Event

namespace Network

variable {events es : List (Event κ ν)} {network next last : Network κ ν ρ σ}
variable {frame : Frame κ ν ρ σ} {stack frames rest : List (Frame κ ν ρ σ)}

/-- A leaf that takes in a value of its subject while one is on its way, if it has not just come. -/
def served? (network : Network κ ν ρ σ) (key : κ) (fan : List (Event κ ν)) :
    Event κ ν → Option (Nat × Nat)
  | .fed s l (some _) =>
    if network.leafAt s l = some (.subject key) ∧ currents s l fan = [] then some (s, l) else none
  | _ => none

/-- The listeners to whom a value goes, read off what happens until the next one sets out. -/
def audience (network : Network κ ν ρ σ) (key : κ) (fan : List (Event κ ν)) : List (Nat × Nat) :=
  fan.filterMap (network.served? key fan)

omit [DecidableEq κ] in
theorem setOut_not_mem_feedEvents (network : Network κ ν ρ σ) (n l : Nat) (incoming : Option ν)
    (key : κ) (value : ν) : .setOut key value ∉ network.feedEvents n l incoming := by
  obtain ⟨calls, h⟩ := network.feedEvents_eq n l incoming
  simp [h]

/-- A value sets out when it is published at rest, or when the one before it has reached everyone. -/
theorem Transition.sets_out (transition : Transition network frame es next frames) {key : κ}
    {value : ν} (member : .setOut key value ∈ es) : ∃ go,
    frames = [.fanOut key value (next.subject key).listeners
      (next.subject key).listeners.length go] ∧
    ((frame = .script (.publish key value go) ∧ (network.subject key).busy = false ∧
        es = [.published key value, .setOut key value]) ∨
      ∃ last audience, frame = .fanOut key last [] audience go ∧ es = [.setOut key value]) := by
  cases transition with
  | @begun place v go idle =>
    obtain ⟨rfl, rfl⟩ : key = place ∧ value = v := by simpa using member
    exact ⟨go, by rw [network.listeners_setOut key value [] key], .inl ⟨rfl, idle, rfl⟩⟩
  | @resumed place last v audience go queue head =>
    obtain ⟨rfl, rfl⟩ : key = place ∧ value = v := by simpa using member
    exact ⟨go, by rw [network.listeners_setOut key value queue key],
      .inr ⟨last, audience, rfl, rfl⟩⟩
  | delivered => exact absurd member (setOut_not_mem_feedEvents _ _ _ _ _ _)
  | supplied => exact absurd member (setOut_not_mem_feedEvents _ _ _ _ _ _)
  | replayed => simp [setOut_not_mem_feedEvents] at member
  | _ => simp at member

section Fan

variable {key : κ} {value : ν} {n : Nat} {go : Nat → Script κ ν ρ σ} {fan : List (Event κ ν)}

end Fan

section Calling

variable {key : κ} {value : ν} {past later waited fan others : List (Event κ ν)}

end Calling

section Returning

variable {key : κ} {value : ν} {n : Nat} {next : Nat → Script κ ν ρ σ} {later : List (Event κ ν)}

end Returning

end Network

end Switchboard
