import Switchboard.Proofs.Network.Opening

/-!
# Sound networks

The invariants of runs put together. A network is sound for some events if it
could have come of them: its subjects, the accounts of leaves, the states of
subscriptions and the progress of openings agree with the events. Every run
leads from a sound network to a sound one.
-/
namespace Switchboard

variable {κ ν ρ σ : Type} [DecidableEq κ]

open Event

namespace Network

/-- What the events say of the leaves that were attached is right. -/
def Placed (events : List (Event κ ν)) (network : Network κ ν ρ σ) : Prop :=
  ∀ past registration current later, events = past ++ .attached registration current :: later →
    current = (departures registration.subject past).getLast? ∧
      network.leafAt registration.subscription registration.leaf =
        some (.subject registration.subject)

structure Sound (events : List (Event κ ν)) (network : Network κ ν ρ σ)
    (stack : List (Frame κ ν ρ σ)) : Prop where
  flowing : Flowing events network stack
  accounted : Accounted events network stack
  recorded : Recorded events network
  opened : Opened events network stack
  placed : Placed events network

variable {events es : List (Event κ ν)} {network next : Network κ ν ρ σ}
variable {frame : Frame κ ν ρ σ} {stack frames rest : List (Frame κ ν ρ σ)}

/-- One step keeps subscriptions and events in agreement. -/
theorem Recorded.step (recorded : Recorded events network)
    (accounted : Accounted events network (frame :: rest))
    (transition : Transition network frame es next frames) : Recorded (events ++ es) next := by
  cases transition with
  | aside goes subjects subscriptions => exact recorded.unheard subscriptions fun _ => ⟨rfl, rfl⟩
  | queued => exact recorded.unheard rfl fun _ => ⟨rfl, rfl⟩
  | begun => exact recorded.unheard rfl fun _ => ⟨rfl, rfl⟩
  | subscribed => exact recorded.subscribed rfl fun _ => ⟨rfl, rfl⟩
  | detached =>
    refine recorded.unheard (network.detach_subscriptions _) fun _ => ?_
    simp [feeds, feed?, Event.calls, call?, Function.comp_def]
  | @delivered key value subscription leaf waiting =>
    have placed := (accounted.fits _ List.mem_cons_self).2 subscription leaf List.mem_cons_self
    obtain ⟨sub, found, _⟩ := Option.bind_eq_some_iff.mp placed
    exact recorded.feed (List.getElem?_eq_some_iff.mp found).1
  | resumed => exact recorded.unheard rfl fun _ => ⟨rfl, rfl⟩
  | finished => exact recorded.unheard rfl fun _ => ⟨rfl, rfl⟩
  | attached => exact recorded.unheard rfl fun _ => ⟨rfl, rfl⟩
  | @replayed key subscription leaf leaves go value =>
    obtain ⟨sub, found, _⟩ := accounted.fits _ List.mem_cons_self
    have attached : Recorded (events ++ [.attached ⟨key, subscription, leaf⟩ (some value)])
        (network.attach key subscription leaf) :=
      recorded.unheard rfl fun _ => ⟨rfl, rfl⟩
    simpa using attached.feed (List.getElem?_eq_some_iff.mp found).1
  | supplied =>
    obtain ⟨sub, found, _⟩ := accounted.fits _ List.mem_cons_self
    exact recorded.feed (List.getElem?_eq_some_iff.mp found).1
  | opened => exact recorded.unheard rfl fun _ => ⟨rfl, rfl⟩

/-- The step in which a leaf is attached. -/
theorem Transition.of_attached {registration : Registration κ} {current : Option ν}
    {pre post : List (Event κ ν)} (transition : Transition network frame es next frames)
    (place : es = pre ++ .attached registration current :: post) :
    pre = [] ∧ current = (network.subject registration.subject).latest ∧
      ∃ leaves go, frame =
        .opening registration.subscription registration.leaf
          (.subject registration.subject :: leaves) go := by
  have member : Event.attached registration current ∈ es := by
    rw [place]
    simp
  have no_feed (network : Network κ ν ρ σ) (s l : Nat) (incoming : Option ν) :
      Event.attached registration current ∉ network.feedEvents s l incoming := by
    obtain ⟨calls, h⟩ := network.feedEvents_eq s l incoming
    simp [h]
  cases transition with
  | attached silent =>
    cases pre with
    | nil =>
      obtain ⟨same, _⟩ := List.cons.inj place
      injection same with here there
      subst here there
      exact ⟨rfl, silent.symm, _, _, rfl⟩
    | cons => simp at place
  | replayed has =>
    cases pre with
    | nil =>
      obtain ⟨same, _⟩ := List.cons.inj place
      injection same with here there
      subst here there
      exact ⟨rfl, has.symm, _, _, rfl⟩
    | cons first pre =>
      have fed := (List.cons.inj place).2
      exact absurd (by rw [fed]; simp) (no_feed (network.attach _ _ _) _ _ _)
  | delivered => exact absurd member (no_feed _ _ _ _)
  | supplied => exact absurd member (no_feed _ _ _ _)
  | _ => simp at member

/-- One step keeps it right. -/
theorem Placed.step (placed : Placed events network) (flowing : Flowing events network stack)
    (accounted : Accounted events network (frame :: rest))
    (transition : Transition network frame es next frames) : Placed (events ++ es) next := by
  intro past registration current later place
  rcases append_split place with ⟨more, earlier, -⟩ | ⟨pre, rfl, now⟩
  · obtain ⟨has, leaf⟩ := placed past registration current more earlier
    exact ⟨has, transition.keeps.leafAt leaf⟩
  · obtain ⟨rfl, has, leaves, go, rfl⟩ := transition.of_attached now
    refine ⟨?_, ?_⟩
    · rw [has, flowing.latest, List.append_nil]
    · have here := accounted.leafAt_opening 0
      exact transition.keeps.leafAt (by simpa using here)

theorem Run.keeps {final : List (Frame κ ν ρ σ)} (run : Run network stack es next final) :
    network.Keeps next := by
  induction run with
  | still => exact .of_eq rfl
  | step here _ ih =>
    obtain ⟨frames, _, transition⟩ := transition_of_step here
    exact transition.keeps.trans ih

namespace Sound

theorem start (memory : σ) (program : Script κ ν ρ σ) :
    Sound [] (Network.start memory) [.script program] :=
  ⟨.start memory program, .start memory program, .start memory, .start memory program,
    fun past _ _ _ place => by simp at place⟩

/-- Where a leaf that has been reached was attached, and its account since then. -/
theorem attached_once (sound : Sound events network stack) {n l : Nat} {key : κ}
    (here : network.leafAt n l = some (.subject key)) (reached : ¬network.Untouched stack n l) :
    ∃ past current later, events = past ++ .attached ⟨key, n, l⟩ current :: later ∧
      currents n l events = [current] ∧ currents n l past = [] ∧ currents n l later = [] ∧
      current = (departures key past).getLast? ∧
      account n l events = later.foldl (enter n l) ⟨some key, current.toList⟩ := by
  obtain ⟨current, once⟩ := (sound.opened.attached n l key here).resolve_left reached
  obtain ⟨past, ⟨place, s, leaf⟩, later, split, rfl, rfl, before, after⟩ := split_currents once
  obtain ⟨has, placed⟩ := sound.placed _ _ _ _ split
  obtain rfl : place = key := by simpa [here] using placed.symm
  refine ⟨past, current, later, split, once, before, after, has, ?_⟩
  rw [split, account_append, List.foldl_cons, enter, if_pos ⟨rfl, rfl⟩]

theorem step (sound : Sound events network (frame :: rest))
    (transition : Transition network frame es next frames) :
    Sound (events ++ es) next (frames ++ rest) :=
  ⟨sound.flowing.step transition, sound.accounted.step sound.flowing transition,
    sound.recorded.step sound.accounted transition, sound.opened.step sound.accounted transition,
    sound.placed.step sound.flowing sound.accounted transition⟩

/-- Runs lead from sound networks to sound networks. -/
theorem run {stack final : List (Frame κ ν ρ σ)} (sound : Sound events network stack)
    (run : Run network stack es next final) : Sound (events ++ es) next final := by
  induction run generalizing events with
  | still => simpa using sound
  | step here _ ih =>
    obtain ⟨frames, rfl, transition⟩ := transition_of_step here
    rw [← List.append_assoc]
    exact ih (sound.step transition)

/-- A leaf is attached once and never again. -/
theorem never_again (sound : Sound (events ++ es) network stack) {n l : Nat} {key : κ}
    (here : network.leafAt n l = some (.subject key)) (attached : currents n l events ≠ []) :
    currents n l es = [] := by
  rcases sound.opened.attached n l key here with untouched | ⟨current, once⟩
  · have nothing := (sound.opened.unreached n l untouched).1
    rw [currents_append] at nothing
    exact absurd (List.append_eq_nil_iff.mp nothing).1 attached
  · have sizes := congrArg List.length once
    rw [currents_append, List.length_append, List.length_singleton] at sizes
    have some_before := List.length_pos_iff.mpr attached
    exact List.eq_nil_of_length_eq_zero (by omega)

/-- Where nothing is left to do, anything may be done next. -/
theorem script (sound : Sound events network []) (script : Script κ ν ρ σ) :
    Sound events network [.script script] := by
  have untouched (s l : Nat) :
      network.Untouched [.script script] s l ↔ network.Untouched [] s l := by
    simp [Untouched]
  obtain ⟨flowing, accounted, recorded, opened, placed⟩ := sound
  refine ⟨⟨flowing.single, flowing.busy, flowing.empty, flowing.queue, flowing.latest,
    flowing.carrying⟩,
    ⟨by simp [Frame.Fits], accounted.once, accounted.ordered, accounted.listening,
      accounted.place, accounted.even, fun s l h => accounted.untouched s l ((untouched s l).mp h)⟩,
    recorded, ⟨fun s l h => opened.unreached s l ((untouched s l).mp h), ?_, ?_, ?_⟩, placed⟩
  · intro s l key h
    rw [untouched]
    exact opened.attached s l key h
  · intro s l h
    rw [untouched]
    exact opened.supplied s l h
  · intro s l key current here beside attached
    have first := opened.first s l key current here beside attached
    cases current with
    | some value => exact first
    | none =>
      rcases first with first | ⟨_, _, _, _, top⟩
      · exact .inl first
      · cases top

/-- At rest, no subject is sending. -/
theorem idle (sound : Sound events network []) (key : κ) : (network.subject key).busy = false := by
  rw [Bool.eq_false_iff]
  exact mt (sound.flowing.busy key).mp List.not_mem_nil

/-- Memory and journal do not matter. -/
theorem congr {stack : List (Frame κ ν ρ σ)} (sound : Sound events network stack)
    (subjects : next.subjects = network.subjects)
    (subscriptions : next.subscriptions = network.subscriptions) : Sound events next stack := by
  have same := subject_congr subjects
  have places (s l : Nat) : next.leafAt s l = network.leafAt s l := by
    unfold leafAt
    rw [subscriptions]
  have keeps : network.Keeps next := .of_eq subscriptions
  have untouched (s l : Nat) : next.Untouched stack s l ↔ network.Untouched stack s l := by
    unfold Untouched
    rw [subscriptions]
  obtain ⟨flowing, accounted, recorded, opened, placed⟩ := sound
  refine ⟨?_, ?_, ?_, ?_, ?_⟩
  · obtain ⟨single, busy, empty, queue, latest, carrying⟩ := flowing
    rw [← same] at busy empty queue latest carrying
    exact ⟨single, busy, empty, queue, latest, carrying⟩
  · obtain ⟨fits, once, ordered, listening, place, even, reached⟩ := accounted
    rw [← same] at ordered listening
    simp only [← places, ← untouched] at place reached
    exact ⟨fun f h => keeps.fits (fits f h), once, ordered, listening, place, even, reached⟩
  · have nothing : Unheard ([] : List (Event κ ν)) := fun _ => ⟨rfl, rfl⟩
    simpa using recorded.unheard subscriptions nothing
  · obtain ⟨unreached, attached, supplied, first⟩ := opened
    simp only [← places, ← untouched] at unreached attached supplied first
    exact ⟨unreached, attached, supplied, first⟩
  · intro past registration current later place
    rw [places]
    exact placed past registration current later place

end Sound

end Network

end Switchboard
