import Switchboard.Proofs.Network.Foreseen

/-!
# Who is absent

A subscription that is attached nowhere, and to which nothing is on its way, is
never woken again: leaves are attached while their subscription is opened, and
a subscription is opened once. And where nobody joins or leaves, the listeners
of a subject stay who they were, apart from those that are just being opened.
-/
namespace Switchboard

variable {κ ν ρ σ : Type} [DecidableEq κ]

open Event

/-- A frame that has nothing to do with a subscription. -/
def Frame.Spares (n : Nat) : Frame κ ν ρ σ → Prop
  | .script _ => True
  | .fanOut _ _ waiting _ _ => ∀ leaf, (n, leaf) ∉ waiting
  | .opening subscription _ _ _ => subscription ≠ n

namespace Network

variable {n : Nat} {network next last : Network κ ν ρ σ} {frame : Frame κ ν ρ σ}
variable {stack frames rest final : List (Frame κ ν ρ σ)} {es : List (Event κ ν)}

/-- What a step does to listeners: nothing, or some are taken away, or one leaf joins. -/
theorem Transition.listeners (transition : Transition network frame es next frames) :
    (∀ key, (next.subject key).listeners = (network.subject key).listeners) ∨
    (∃ registrations go, frame = .script (.detach registrations go) ∧
      next = network.detach registrations) ∨
    ∃ place m leaf leaves go, frame = .opening m leaf (.subject place :: leaves) go ∧
      ∀ key, (next.subject key).listeners =
        if key = place then (network.subject key).listeners ++ [(m, leaf)]
        else (network.subject key).listeners := by
  cases transition with
  | aside goes subjects => exact .inl fun key => by rw [subject_congr subjects]
  | queued => exact .inl fun _ => network.listeners_setSubject rfl
  | begun => exact .inl (network.listeners_setOut _ _ _)
  | subscribed => exact .inl fun _ => rfl
  | detached => exact .inr (.inl ⟨_, _, rfl, rfl⟩)
  | delivered => exact .inl fun _ => by rw [feed_subject]
  | resumed => exact .inl (network.listeners_setOut _ _ _)
  | finished => exact .inl fun _ => network.listeners_setSubject rfl
  | attached => exact .inr (.inr ⟨_, _, _, _, _, rfl, network.listeners_attach _ _ _⟩)
  | replayed =>
    refine .inr (.inr ⟨_, _, _, _, _, rfl, fun key => ?_⟩)
    rw [feed_subject]
    exact network.listeners_attach _ _ _ key
  | supplied => exact .inl fun _ => by rw [feed_subject]
  | opened => exact .inl fun _ => rfl

/-- A subscription that is attached nowhere and will not be attached. -/
structure Absent (n : Nat) (network : Network κ ν ρ σ) (stack : List (Frame κ ν ρ σ)) : Prop where
  small : n < network.subscriptions.length
  unlisted : ∀ key leaf, (n, leaf) ∉ (network.subject key).listeners
  spared : ∀ frame ∈ stack, frame.Spares n

namespace Absent

/-- Nobody but a subscription that is being opened joins the listeners. -/
theorem unlisted_step (absent : Absent n network (frame :: rest))
    (transition : Transition network frame es next frames) (key : κ) (leaf : Nat) :
    (n, leaf) ∉ (next.subject key).listeners := by
  have before := absent.unlisted key leaf
  rcases transition.listeners with same | ⟨registrations, go, rfl, rfl⟩ |
    ⟨place, m, leaf', leaves, go, rfl, joined⟩
  · rwa [same]
  · rw [subject_detach]
    exact fun listed => before (List.mem_filter.mp listed).1
  · have other : m ≠ n := absent.spared _ List.mem_cons_self
    rw [joined]
    split
    · rw [List.mem_append, List.mem_singleton]
      rintro (listed | same)
      · exact before listed
      · exact other (congrArg Prod.fst same).symm
    · exact before

/-- What comes on the stack has nothing to do with the subscription either, which is not called. -/
theorem spared_step (absent : Absent n network (frame :: rest))
    (transition : Transition network frame es next frames) :
    (∀ f ∈ frames, f.Spares n) ∧ calls n es = [] := by
  have spares := absent.spared frame List.mem_cons_self
  cases transition with
  | aside goes => exact ⟨List.forall_mem_map.mpr fun _ _ => trivial, rfl⟩
  | queued => exact ⟨List.forall_mem_singleton.mpr trivial, rfl⟩
  | @begun key => exact ⟨List.forall_mem_singleton.mpr (absent.unlisted key), rfl⟩
  | subscribed => exact ⟨List.forall_mem_singleton.mpr (Nat.ne_of_gt absent.small), rfl⟩
  | detached =>
    exact ⟨List.forall_mem_singleton.mpr trivial, by simp [calls, call?, Function.comp_def]⟩
  | @delivered key value m leaf waiting audience go woken wakes =>
    have others : ∀ leaf', (n, leaf') ∉ (m, leaf) :: waiting := spares
    have other : m ≠ n := fun here => others leaf (by rw [here]; exact List.mem_cons_self)
    have spared : (Frame.fanOut key value waiting audience go).Spares n :=
      fun leaf' waits => others leaf' (List.mem_cons_of_mem _ waits)
    exact ⟨forall_woken (fun _ => trivial) woken spared,
      calls_feedEvents_of_ne other network leaf _⟩
  | @resumed key => exact ⟨List.forall_mem_singleton.mpr (absent.unlisted key), rfl⟩
  | finished => exact ⟨List.forall_mem_singleton.mpr trivial, rfl⟩
  | attached => exact ⟨List.forall_mem_singleton.mpr spares, rfl⟩
  | @replayed key m leaf leaves go value woken =>
    refine ⟨forall_woken (fun _ => trivial) woken spares, ?_⟩
    rw [calls, List.filterMap_cons_none rfl]
    exact calls_feedEvents_of_ne spares (network.attach key m leaf) leaf _
  | supplied =>
    exact ⟨forall_woken (fun _ => trivial) _ spares, calls_feedEvents_of_ne spares network _ _⟩
  | opened => exact ⟨List.forall_mem_singleton.mpr trivial, rfl⟩

/-- Whoever is absent stays so, and is not called. -/
theorem run (absent : Absent n network stack) (run : Run network stack es last final) :
    Absent n last final ∧ calls n es = [] := by
  induction run with
  | still => exact ⟨absent, rfl⟩
  | step here _ ih =>
    obtain ⟨frames, rfl, transition⟩ := transition_of_step here
    obtain ⟨spared, uncalled⟩ := absent.spared_step transition
    have rests := fun f member => absent.spared f (List.mem_cons_of_mem _ member)
    obtain ⟨absent', uncalled'⟩ := ih ⟨Nat.lt_of_lt_of_le absent.small transition.keeps.length_le,
      absent.unlisted_step transition, List.forall_mem_append.mpr ⟨spared, rests⟩⟩
    exact ⟨absent', by rw [calls_append, uncalled, uncalled', List.append_nil]⟩

section AtRest

theorem alike (absent : Absent n network []) (subjects : next.subjects = network.subjects)
    (subscriptions : next.subscriptions = network.subscriptions) : Absent n next [] where
  small := by rw [subscriptions]; exact absent.small
  unlisted := by rw [subject_congr subjects]; exact absent.unlisted
  spared := nofun

theorem begins (absent : Absent n network []) (script : Script κ ν ρ σ) :
    Absent n network [.script script] where
  small := absent.small
  unlisted := absent.unlisted
  spared := List.forall_mem_singleton.mpr trivial

/-- Somebody else joins. -/
theorem enlist (absent : Absent n network []) {α : Type} (stream : Stream κ ν ρ α)
    (listener : α → Script κ ν ρ σ) (leaf : Nat) (leaves : List (Leaf κ)) (go : Script κ ν ρ σ) :
    Absent n (network.enlisted stream listener)
      [.opening network.subscriptions.length leaf leaves go] where
  small := by
    rw [enlisted, List.length_append]
    exact Nat.lt_add_right 1 absent.small
  unlisted := absent.unlisted
  spared := List.forall_mem_singleton.mpr (Nat.ne_of_gt absent.small)

theorem detach (absent : Absent n network []) (registrations : List (Registration κ)) :
    Absent n (network.detach registrations) [] where
  small := by rw [detach_subscriptions]; exact absent.small
  unlisted key leaf := by
    rw [subject_detach]
    exact fun listed => absent.unlisted key leaf (List.mem_filter.mp listed).1
  spared := nofun

end AtRest

end Absent

namespace Tame

variable {keeps : σ → Prop}

/-- Where nobody comes or goes, no subscription is opened but those that are. -/
theorem openings_step (tame : Tame keeps network (frame :: rest))
    (transition : Transition network frame es next frames) :
    ∀ n ∈ openings (frames ++ rest), n ∈ openings (frame :: rest) := by
  have top := tame.frames frame List.mem_cons_self
  cases transition with
  | subscribed => exact nomatch (show Script.Tame keeps (.subscribe _ _ _) from top)
  | opened => exact fun _ => List.mem_cons_of_mem _
  | _ => simp

/--
Where nobody comes or goes, the listeners of a subject stay, apart from those that are just being
opened.
-/
theorem listeners_run (tame : Tame keeps network stack) {old : Nat → Bool}
    (openings_new : ∀ n ∈ openings stack, old n = false)
    (run : Run network stack es last final) (key : κ) :
    (last.subject key).listeners.filter (fun listener => old listener.1) =
      (network.subject key).listeners.filter fun listener => old listener.1 := by
  induction run with
  | still => rfl
  | @step network next last frame rest stack final es here _ ih =>
    obtain ⟨frames, rfl, transition⟩ := transition_of_step here
    rw [ih (tame.step here).1 fun n member =>
      openings_new n (tame.openings_step transition n member)]
    rcases transition.listeners with same | ⟨registrations, go, rfl, _⟩ |
      ⟨place, m, leaf, leaves, go, rfl, joined⟩
    · rw [same]
    · exact nomatch (show Script.Tame keeps (.detach _ _) from tame.frames _ List.mem_cons_self)
    · have new := openings_new m List.mem_cons_self
      rw [joined]
      split
      · simp [new]
      · rfl

end Tame

/-- The listeners with numbers below a certain one are the same, in the same order. -/
def KeepsListeners (base : Nat) (network next : Network κ ν ρ σ) : Prop :=
  ∀ key, (next.subject key).listeners.filter (fun listener => decide (listener.1 < base)) =
    (network.subject key).listeners.filter fun listener => decide (listener.1 < base)

namespace KeepsListeners

variable {base : Nat}

theorem of_eq (subjects : next.subjects = network.subjects) : network.KeepsListeners base next :=
  fun key => by rw [subject_congr subjects]

theorem trans (first : network.KeepsListeners base next) (second : next.KeepsListeners base last) :
    network.KeepsListeners base last :=
  fun key => (second key).trans (first key)

end KeepsListeners

end Network

end Switchboard
