import Switchboard.Proofs.Network.Quiet

/-!
# Where a run leads

Runs without their events, for arguments that look at the network alone. A
fan-out keeps whatever every single delivery keeps, the invariant being indexed
by the listeners that are still waiting.
-/
namespace Switchboard.Network

variable {κ ν ρ σ : Type} [DecidableEq κ]

/-- A run leads from one network and stack to another. -/
def Reaches (network : Network κ ν ρ σ) (stack : List (Frame κ ν ρ σ))
    (next : Network κ ν ρ σ) (final : List (Frame κ ν ρ σ)) : Prop :=
  ∃ es, Run network stack es next final

variable {network next last : Network κ ν ρ σ} {stack stack' final : List (Frame κ ν ρ σ)}

namespace Reaches

theorem refl (network : Network κ ν ρ σ) (stack : List (Frame κ ν ρ σ)) :
    network.Reaches stack network stack :=
  ⟨[], .still network stack⟩

theorem trans (first : network.Reaches stack next stack')
    (second : next.Reaches stack' last final) : network.Reaches stack last final := by
  obtain ⟨es, run⟩ := first
  obtain ⟨es', run'⟩ := second
  exact ⟨es ++ es', run.trans run'⟩

theorem above (reaches : network.Reaches stack next final) (rest : List (Frame κ ν ρ σ)) :
    network.Reaches (stack ++ rest) next (final ++ rest) := by
  obtain ⟨es, run⟩ := reaches
  exact ⟨es, run.above rest⟩

theorem of_step {frame : Frame κ ν ρ σ}
    (h : network.step (frame :: stack) = (next, stack')) :
    network.Reaches (frame :: stack) next stack' :=
  ⟨_, .single h⟩

variable {key : κ} {value : ν} {waiting : List (Nat × Nat)} {audience : Nat}
variable {go : Nat → Script κ ν ρ σ}

theorem begun (idle : (network.subject key).busy = false) :
    network.Reaches [.script (.publish key value go)] (network.setOut key value [])
      [.fanOut key value (network.subject key).listeners
        (network.subject key).listeners.length go] :=
  ⟨_, .begun idle⟩

theorem queued (busy : (network.subject key).busy = true) :
    network.Reaches [.script (.publish key value go)]
      (network.setSubject key ((network.subject key).queueing value))
      [.script (go (network.subject key).listeners.length)] :=
  ⟨_, .queued busy⟩

theorem resumed {later : ν} {queue : List ν} (head : (network.subject key).queue = later :: queue) :
    network.Reaches [.fanOut key value [] audience go] (network.setOut key later queue)
      [.fanOut key later (network.subject key).listeners
        (network.subject key).listeners.length go] :=
  ⟨_, .resumed head⟩

theorem finished (empty : (network.subject key).queue = []) :
    network.Reaches [.fanOut key value [] audience go]
      (network.setSubject key (network.subject key).released) [.script (go audience)] :=
  ⟨_, .finished empty⟩

/-- A fan-out keeps what every delivery keeps. -/
theorem fanOut (Holds : List (Nat × Nat) → Network κ ν ρ σ → Prop)
    (delivers : ∀ n leaf waiting network, Holds ((n, leaf) :: waiting) network →
      ∃ next : Network κ ν ρ σ, (network.feed n leaf (some value)).1.Reaches
        (network.feed n leaf (some value)).2 next [] ∧ Holds waiting next)
    (holds : Holds waiting network) :
    ∃ next, network.Reaches [.fanOut key value waiting audience go] next
      [.fanOut key value [] audience go] ∧ Holds [] next := by
  induction waiting generalizing network with
  | nil => exact ⟨network, .refl _ _, holds⟩
  | cons listener waiting ih =>
    obtain ⟨n, leaf⟩ := listener
    obtain ⟨middle, first, kept⟩ := delivers n leaf waiting network holds
    obtain ⟨last, second, done⟩ := ih kept
    refine ⟨last, ?_, done⟩
    have begins : network.Reaches [.fanOut key value ((n, leaf) :: waiting) audience go]
        (network.feed n leaf (some value)).1 ((network.feed n leaf (some value)).2 ++
          [.fanOut key value waiting audience go]) :=
      of_step rfl
    exact (begins.trans (first.above _)).trans second

variable {n leaf : Nat} {leaves : List (Leaf κ)} {script : Script κ ν ρ σ}

theorem supplied
    (feeds : (network.feed n leaf none).1.Reaches (network.feed n leaf none).2 next []) :
    network.Reaches [.opening n leaf (.own :: leaves) script] next
      [.opening n (leaf + 1) leaves script] := by
  have begins : network.Reaches [.opening n leaf (.own :: leaves) script]
      (network.feed n leaf none).1
      ((network.feed n leaf none).2 ++ [.opening n (leaf + 1) leaves script]) :=
    of_step rfl
  exact begins.trans (feeds.above _)

theorem attached (silent : (network.subject key).latest = none) :
    network.Reaches [.opening n leaf (.subject key :: leaves) script] (network.attach key n leaf)
      [.opening n (leaf + 1) leaves script] :=
  ⟨_, .attached silent⟩

theorem replayed (current : (network.subject key).latest = some value)
    (feeds : ((network.attach key n leaf).feed n leaf (some value)).1.Reaches
      ((network.attach key n leaf).feed n leaf (some value)).2 next []) :
    network.Reaches [.opening n leaf (.subject key :: leaves) script] next
      [.opening n (leaf + 1) leaves script] :=
  trans ⟨_, .replayed current⟩ (feeds.above _)

end Reaches

end Switchboard.Network
