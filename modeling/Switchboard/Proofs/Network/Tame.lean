import Switchboard.Proofs.Network.Rest

/-!
# Tame listeners

A script is tame if it publishes at most, next to what quiet scripts do. Where
all listeners are tame, nobody joins or leaves while the network is at work,
and the memory stays within its bounds. A tame network need not come to rest,
so that this is said of every run, finished or not.
-/
namespace Switchboard

variable {κ ν ρ σ : Type}

/-- A script that keeps what holds of the memory, and neither attaches nor detaches anything. -/
inductive Script.Tame (keeps : σ → Prop) : Script κ ν ρ σ → Prop where
  | done : Tame keeps .done
  | record {entry : ρ} {next : Script κ ν ρ σ} (h : Tame keeps next) :
      Tame keeps (.record entry next)
  | change {f : σ → σ} {next : Script κ ν ρ σ} (stays : ∀ memory, keeps memory → keeps (f memory))
      (h : Tame keeps next) : Tame keeps (.change f next)
  | consult {next : σ → Script κ ν ρ σ} (h : ∀ memory, keeps memory → Tame keeps (next memory)) :
      Tame keeps (.consult next)
  | publish {key : κ} {value : ν} {next : Nat → Script κ ν ρ σ} (h : ∀ n, Tame keeps (next n)) :
      Tame keeps (.publish key value next)

theorem Script.Quiet.tame {keeps : σ → Prop} {script : Script κ ν ρ σ} (quiet : script.Quiet keeps) :
    script.Tame keeps := by
  induction quiet with
  | done => exact .done
  | record _ ih => exact .record ih
  | change stays _ ih => exact .change stays ih
  | consult _ ih => exact .consult ih

/-- What a frame will go on with is tame. -/
def Frame.Tame (keeps : σ → Prop) : Frame κ ν ρ σ → Prop
  | .script now => now.Tame keeps
  | .fanOut _ _ _ _ next => ∀ n, (next n).Tame keeps
  | .opening _ _ _ next => next.Tame keeps

namespace Network

/-- A network at work in which everything is tame. -/
structure Tame (keeps : σ → Prop) (network : Network κ ν ρ σ) (stack : List (Frame κ ν ρ σ)) :
    Prop where
  listeners : ∀ s ∈ network.subscriptions, ∀ a, (s.listener a).Tame keeps
  frames : ∀ frame ∈ stack, frame.Tame keeps
  holds : keeps network.memory

namespace Tame

variable {keeps : σ → Prop} {network next last : Network κ ν ρ σ}
variable {stack rest final : List (Frame κ ν ρ σ)} {frame : Frame κ ν ρ σ}

/-- Another frame on top, or in place of the one there. -/
theorem put (tame : Tame keeps network stack) (subscriptions : next.subscriptions = network.subscriptions)
    (holds : keeps next.memory) (top : frame.Tame keeps) : Tame keeps next (frame :: stack) := by
  refine ⟨?_, List.forall_mem_cons.mpr ⟨top, tame.frames⟩, holds⟩
  rw [subscriptions]
  exact tame.listeners

theorem below (tame : Tame keeps network (frame :: rest)) : Tame keeps network rest :=
  ⟨tame.listeners, fun f member => tame.frames f (List.mem_cons_of_mem _ member), tame.holds⟩

/-- A feed wakes tame scripts. -/
theorem feed (tame : Tame keeps network stack) (subscription leaf : Nat) (incoming : Option ν) :
    Tame keeps (network.feed subscription leaf incoming).1
      ((network.feed subscription leaf incoming).2 ++ stack) := by
  obtain ⟨listeners, woken⟩ := network.feed_listeners subscription leaf incoming tame.listeners
  refine ⟨listeners, ?_, ?_⟩
  · rw [List.forall_mem_append]
    refine ⟨fun f member => ?_, tame.frames⟩
    obtain ⟨script, rfl, quiet⟩ := woken f member
    exact quiet
  · rw [feed_memory]
    exact tame.holds

variable [DecidableEq κ]

/-- One step stays tame and adds no subscription. -/
theorem step (tame : Tame keeps network (frame :: rest))
    (moves : network.step (frame :: rest) = (next, stack)) :
    Tame keeps next stack ∧ next.subscriptions.length = network.subscriptions.length := by
  have below := tame.below
  have top := tame.frames frame List.mem_cons_self
  cases frame with
  | script script =>
    have tame_script : script.Tame keeps := top
    cases tame_script with
    | done =>
      obtain ⟨rfl, rfl⟩ := Prod.mk.inj moves
      exact ⟨below, rfl⟩
    | record h =>
      obtain ⟨rfl, rfl⟩ := Prod.mk.inj moves
      exact ⟨below.put rfl tame.holds h, rfl⟩
    | change stays h =>
      obtain ⟨rfl, rfl⟩ := Prod.mk.inj moves
      exact ⟨below.put rfl (stays _ tame.holds) h, rfl⟩
    | consult h =>
      obtain ⟨rfl, rfl⟩ := Prod.mk.inj moves
      exact ⟨below.put rfl tame.holds (h _ tame.holds), rfl⟩
    | @publish key value go h =>
      simp only [Network.step, stepScript] at moves
      split at moves
      · obtain ⟨rfl, rfl⟩ := Prod.mk.inj moves
        exact ⟨below.put rfl tame.holds (h _), rfl⟩
      · obtain ⟨rfl, rfl⟩ := Prod.mk.inj moves
        exact ⟨below.put rfl tame.holds h, rfl⟩
  | fanOut key value waiting audience go =>
    have tame_go : ∀ n, (go n).Tame keeps := top
    cases waiting with
    | cons listener waiting =>
      obtain ⟨rfl, rfl⟩ := Prod.mk.inj moves
      have later : Frame.Tame keeps (.fanOut key value waiting audience go) := top
      exact ⟨(below.put rfl tame.holds later).feed .., feed_length ..⟩
    | nil =>
      simp only [Network.step] at moves
      split at moves
      · obtain ⟨rfl, rfl⟩ := Prod.mk.inj moves
        exact ⟨below.put rfl tame.holds tame_go, rfl⟩
      · obtain ⟨rfl, rfl⟩ := Prod.mk.inj moves
        exact ⟨below.put rfl tame.holds (tame_go _), rfl⟩
  | opening subscription leaf leaves go =>
    have tame_go : go.Tame keeps := top
    cases leaves with
    | nil =>
      obtain ⟨rfl, rfl⟩ := Prod.mk.inj moves
      exact ⟨below.put rfl tame.holds tame_go, rfl⟩
    | cons first leaves =>
      have rest_opens (now : Network κ ν ρ σ) (same : now.subscriptions = network.subscriptions)
          (memory : now.memory = network.memory) :
          Tame keeps now (.opening subscription (leaf + 1) leaves go :: rest) :=
        below.put same (by rw [memory]; exact tame.holds) tame_go
      cases first with
      | own =>
        obtain ⟨rfl, rfl⟩ := Prod.mk.inj moves
        exact ⟨(rest_opens network rfl rfl).feed .., feed_length ..⟩
      | subject key =>
        have joins := rest_opens (network.attach key subscription leaf) rfl rfl
        simp only [Network.step] at moves
        split at moves
        · obtain ⟨rfl, rfl⟩ := Prod.mk.inj moves
          exact ⟨joins.feed .., feed_length ..⟩
        · obtain ⟨rfl, rfl⟩ := Prod.mk.inj moves
          exact ⟨joins, rfl⟩

/-- A run stays tame and adds no subscription. -/
theorem run {es : List (Event κ ν)} (tame : Tame keeps network stack)
    (run : Run network stack es last final) :
    Tame keeps last final ∧ last.subscriptions.length = network.subscriptions.length := by
  induction run with
  | still => exact ⟨tame, rfl⟩
  | step here _ ih =>
    obtain ⟨tame', length⟩ := tame.step here
    obtain ⟨tame'', length'⟩ := ih tame'
    exact ⟨tame'', length'.trans length⟩

/-- One step takes no leaf away. -/
theorem staying_step (tame : Tame keeps network (frame :: rest))
    (moves : network.step (frame :: rest) = (next, stack)) :
    Event.Staying (network.stepEvents frame) := by
  have top := tame.frames frame List.mem_cons_self
  have no_feed (now : Network κ ν ρ σ) (n l : Nat) (incoming : Option ν) :
      Event.Staying (now.feedEvents n l incoming) :=
    .of_still (now.still_feedEvents n l incoming)
  obtain ⟨frames, _, transition⟩ := transition_of_step moves
  generalize network.stepEvents frame = es at transition
  intro registration member
  cases transition with
  | detached => exact nomatch (show Script.Tame keeps (.detach _ _) from top)
  | delivered => exact no_feed _ _ _ _ registration member
  | supplied => exact no_feed _ _ _ _ registration member
  | replayed =>
    rcases List.mem_cons.mp member with same | member
    · exact nomatch same
    · exact no_feed _ _ _ _ registration member
  | _ => simp at member

/-- A run takes no leaf away. -/
theorem staying {es : List (Event κ ν)} (tame : Tame keeps network stack)
    (run : Run network stack es last final) : Event.Staying es := by
  induction run with
  | still => exact fun _ => List.not_mem_nil
  | step here _ ih => exact (tame.staying_step here).append (ih (tame.step here).1)

end Tame

end Network

end Switchboard
