import Switchboard.Proofs.Engine.Starting

/-!
# Budgets

An operation that comes to its end within a budget of steps does the same with
every larger one. So it is enough to watch an operation come to its end once.
-/
namespace Switchboard

namespace Network

variable {κ ν ρ σ : Type} [DecidableEq κ]

theorem settle_mono {fuel more : Nat} {network last : Network κ ν ρ σ}
    {stack : List (Frame κ ν ρ σ)} (settles : network.settle fuel stack = some last)
    (enough : fuel ≤ more) : network.settle more stack = some last := by
  induction fuel generalizing more network stack with
  | zero => exact nomatch settles
  | succ fuel ih =>
    obtain ⟨more, rfl⟩ := Nat.exists_eq_add_of_le' enough
    rw [← Nat.add_assoc]
    cases stack with
    | nil => exact settles
    | cons frame rest =>
      have later : settle fuel (network.step (frame :: rest)).1 (network.step (frame :: rest)).2 =
        some last := settles
      show settle (more + fuel) (network.step (frame :: rest)).1 (network.step (frame :: rest)).2 =
        some last
      exact ih later (by omega)

end Network

namespace Engine

variable {ς : Type} {engine : Engine ς} {budget more : Nat}

theorem perform_mono {script : PlantScript ς} {after : Engine ς}
    (ends : engine.perform budget script = some after) (enough : budget ≤ more) :
    engine.perform more script = some after := by
  obtain ⟨network, settles, rfl⟩ := Option.map_eq_some_iff.mp ends
  have settles' : engine.network.perform more script = some network :=
    Network.settle_mono settles enough
  rw [perform, settles']
  rfl

theorem publish_mono {path : String} {value : Json} {result : Engine ς × Nat}
    (ends : engine.publish budget path value = some result) (enough : budget ≤ more) :
    engine.publish more path value = some result := by
  obtain ⟨after, performs, rfl⟩ := Option.map_eq_some_iff.mp ends
  rw [publish, perform_mono performs enough]
  rfl

theorem publishAll_mono {values : List (String × Json)} {after : Engine ς}
    (ends : engine.publishAll budget values = some after) (enough : budget ≤ more) :
    engine.publishAll more values = some after := by
  induction values generalizing engine with
  | nil => exact ends
  | cons first rest ih =>
    obtain ⟨path, value⟩ := first
    obtain ⟨middle, audience, published, later⟩ := publishAll_cons.mp ends
    exact publishAll_cons.mpr ⟨middle, audience, publish_mono published enough, ih later⟩

/-- One way to see where publications lead. -/
theorem publishes_of_some {values : List (String × Json)} {after : Engine ς}
    (ends : engine.publishAll budget values = some after) : engine.Publishes values after :=
  ⟨budget, fun _ enough => publishAll_mono ends enough⟩

/-- Publications lead somewhere if the first one does, and the others from there. -/
theorem publishes_cons_iff {path : String} {value : Json} {values : List (String × Json)}
    {last : Engine ς} : engine.Publishes ((path, value) :: values) last ↔
      ∃ budget middle audience, engine.publish budget path value = some (middle, audience) ∧
        middle.Publishes values last := by
  constructor
  · rintro ⟨budget, ends⟩
    obtain ⟨middle, audience, published, later⟩ := publishAll_cons.mp (ends budget le_rfl)
    exact ⟨budget, middle, audience, published, publishes_of_some later⟩
  · rintro ⟨budget, middle, audience, published, later⟩
    exact Publishes.cons ⟨budget, fun more enough =>
      publishAll_cons.mpr ⟨middle, audience, publish_mono published enough, rfl⟩⟩ later

theorem subscribe_mono {α : Type} {stream : BusStream α} {listener : α → PlantScript ς}
    {result : Engine ς × Handle Line}
    (ends : engine.subscribe budget stream listener = some result) (enough : budget ≤ more) :
    engine.subscribe more stream listener = some result := by
  obtain ⟨after, performs, rfl⟩ := Option.map_eq_some_iff.mp ends
  rw [subscribe, perform_mono performs enough]
  rfl

theorem activate_mono {compiled : CompiledRule} {after : Engine ς} {active : ActiveRule}
    (ends : engine.activate budget compiled = some (after, active)) (enough : budget ≤ more) :
    engine.activate more compiled = some (after, active) := by
  obtain ⟨handle, same, subscribes⟩ := activate_eq_some.mp ends
  exact activate_eq_some.mpr ⟨handle, same, subscribe_mono subscribes enough⟩

theorem enable_mono {config : EngineConfig} {index : Nat} {rule : RuleConfig}
    {after : Engine ς} {outcome : Except DroppedRule ActiveRule}
    (ends : engine.enable budget config index rule = some (after, outcome))
    (enough : budget ≤ more) : engine.enable more config index rule = some (after, outcome) := by
  refine enable_eq_some.mpr ((enable_eq_some.mp ends).imp_right ?_)
  rintro ⟨compiled, active, compiles, same, activates⟩
  exact ⟨compiled, active, compiles, same, activate_mono activates enough⟩

theorem enableAll_mono {config : EngineConfig} {candidates : List (RuleConfig × Nat)}
    {after : Engine ς} {outcomes : List (Except DroppedRule ActiveRule)}
    (ends : enableAll budget config candidates engine = some (after, outcomes))
    (enough : budget ≤ more) :
    enableAll more config candidates engine = some (after, outcomes) := by
  induction candidates generalizing engine outcomes with
  | nil => exact ends
  | cons candidate rest ih =>
    obtain ⟨rule, index⟩ := candidate
    obtain ⟨middle, outcome, later, same, enabled, rest_ends⟩ := enableAll_cons.mp ends
    exact enableAll_cons.mpr
      ⟨middle, outcome, later, same, enable_mono enabled enough, ih rest_ends⟩

theorem start_mono {config : EngineConfig} {after : Engine ς}
    {result : Except RuleError StartReport}
    (ends : engine.start budget config = some (after, result)) (enough : budget ≤ more) :
    engine.start more config = some (after, result) := by
  cases running : engine.running with
  | true =>
    rw [start_running running] at ends ⊢
    exact ends
  | false =>
    refine (start_eq_some running).mpr (((start_eq_some running).mp ends).imp_right ?_)
    rintro ⟨usable, middle, outcomes, rfl, same, enables⟩
    exact ⟨usable, middle, outcomes, rfl, same, enableAll_mono enables enough⟩

/-- One way to see where a start leads. -/
theorem starts_of_some {config : EngineConfig} {started : Engine ς}
    {report : Except RuleError StartReport}
    (ends : engine.start budget config = some (started, report)) : engine.Starts config started :=
  ⟨budget, report, fun _ enough => start_mono ends enough⟩

end Engine

end Switchboard
