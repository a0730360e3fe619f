import Switchboard.Stream.Network

/-!
# What happens in a run

Every step of a network is watched for the events that an onlooker can tell
apart: a value is published, sets out to the listeners of its subject, is let
into a subscription at a leaf, and reaches the listener there; a leaf is
attached to its subject or detached again. Reading and changing memory and
writing to the journal are not events.

An event does nothing by itself. It is read off the network and the business
on top of the stack, so a run has the same events whoever looks.
-/
namespace Switchboard

variable {κ ν ρ σ : Type}

inductive Event (κ ν : Type) : Type 1 where
  /-- A script asks for a value to be published. -/
  | published (key : κ) (value : ν)
  /-- The fan-out of a value begins. -/
  | setOut (key : κ) (value : ν)
  | subscribed (subscription : Nat)
  /-- A leaf is attached to its subject, which has a certain value then. -/
  | attached (registration : Registration κ) (current : Option ν)
  | detached (registration : Registration κ)
  /-- A subscription takes in a value, or an own value of its stream, at a leaf. -/
  | fed (subscription leaf : Nat) (incoming : Option ν)
  /-- The listener of a subscription is called. -/
  | called (subscription : Nat) (value : (α : Type) × α)

namespace Network

/-- The events of letting a value into a subscription. -/
def feedEvents (network : Network κ ν ρ σ) (subscription leaf : Nat) (incoming : Option ν) :
    List (Event κ ν) :=
  .fed subscription leaf incoming ::
    match network.subscriptions[subscription]? with
    | none => []
    | some ⟨stream, state, _⟩ =>
      match stream.push state leaf incoming with
      | .error _ => []
      | .ok pushed => pushed.value.toList.map fun a => .called subscription ⟨_, a⟩

variable [DecidableEq κ]

/-- The events of one step of a script. -/
def scriptEvents (network : Network κ ν ρ σ) : Script κ ν ρ σ → List (Event κ ν)
  | .publish key value _ =>
    .published key value ::
      if (network.subject key).busy then [] else [.setOut key value]
  | .subscribe .. => [.subscribed network.subscriptions.length]
  | .detach registrations _ => registrations.map .detached
  | .done | .record .. | .change .. | .consult _ => []

/-- The events of one step. -/
def stepEvents (network : Network κ ν ρ σ) : Frame κ ν ρ σ → List (Event κ ν)
  | .script script => network.scriptEvents script
  | .fanOut _ value ((subscription, leaf) :: _) _ _ =>
    network.feedEvents subscription leaf (some value)
  | .fanOut key _ [] _ _ =>
    match (network.subject key).queue with
    | value :: _ => [.setOut key value]
    | [] => []
  | .opening subscription leaf (.subject key :: _) _ =>
    .attached ⟨key, subscription, leaf⟩ (network.subject key).latest ::
      match (network.subject key).latest with
      | some value => network.feedEvents subscription leaf (some value)
      | none => []
  | .opening subscription leaf (.own :: _) _ => network.feedEvents subscription leaf none
  | .opening _ _ [] _ => []

/-- The events of at most `fuel` steps. -/
def events : Nat → Network κ ν ρ σ → List (Frame κ ν ρ σ) → List (Event κ ν)
  | 0, _, _ => []
  | _ + 1, _, [] => []
  | fuel + 1, network, frame :: rest =>
    match network.step (frame :: rest) with
    | (next, stack) => network.stepEvents frame ++ events fuel next stack

/-- A run from one network and stack to another, and its events. -/
inductive Run : Network κ ν ρ σ → List (Frame κ ν ρ σ) → List (Event κ ν) →
    Network κ ν ρ σ → List (Frame κ ν ρ σ) → Prop where
  | still (network : Network κ ν ρ σ) (stack : List (Frame κ ν ρ σ)) :
      Run network stack [] network stack
  | step {network next last : Network κ ν ρ σ} {frame : Frame κ ν ρ σ}
      {rest stack final : List (Frame κ ν ρ σ)} {es : List (Event κ ν)}
      (here : network.step (frame :: rest) = (next, stack))
      (later : Run next stack es last final) :
      Run network (frame :: rest) (network.stepEvents frame ++ es) last final

/-- An entry of two histories in a row stands in the one or in the other. -/
theorem append_split.{u} {α : Type u} {before after past later : List α} {entry : α}
    (split : before ++ after = past ++ entry :: later) :
    (∃ more, before = past ++ entry :: more ∧ later = more ++ after) ∨
      ∃ more, past = before ++ more ∧ after = more ++ entry :: later := by
  rcases List.append_eq_append_iff.mp split with ⟨more, earlier, now⟩ | ⟨more, earlier, rest⟩
  · exact .inr ⟨more, earlier, now⟩
  · cases more with
    | nil => exact .inr ⟨[], by simpa using earlier.symm, by simpa using rest.symm⟩
    | cons first more =>
      obtain ⟨rfl, rfl⟩ := List.cons.inj rest
      exact .inl ⟨more, earlier, rfl⟩

namespace Run

variable {network next last : Network κ ν ρ σ}
variable {stack stack' final rest : List (Frame κ ν ρ σ)} {es es' : List (Event κ ν)}

theorem trans (first : Run network stack es next stack')
    (second : Run next stack' es' last final) : Run network stack (es ++ es') last final := by
  induction first with
  | still => exact second
  | step here _ ih =>
    rw [List.append_assoc]
    exact .step here (ih second)

/-- One step, as a run. -/
theorem single {frame : Frame κ ν ρ σ} (h : network.step (frame :: rest) = (next, stack)) :
    Run network (frame :: rest) (network.stepEvents frame) next stack := by
  simpa using Run.step h (.still next stack)

/-- Where an event stands in a run: the step that it belongs to, and the runs around it. -/
theorem split {past later : List (Event κ ν)} {event : Event κ ν}
    (run : Run network stack es last final) (place : es = past ++ event :: later) :
    ∃ (before after : Network κ ν ρ σ) (frame : Frame κ ν ρ σ)
      (below above : List (Frame κ ν ρ σ)) (earlier pre post future : List (Event κ ν)),
      Run network stack earlier before (frame :: below) ∧
        before.step (frame :: below) = (after, above) ∧
        before.stepEvents frame = pre ++ event :: post ∧ Run after above future last final ∧
        past = earlier ++ pre ∧ later = post ++ future := by
  induction run generalizing past with
  | still => simp at place
  | @step network next last frame rest stack final es here run ih =>
    rcases append_split place with ⟨post, in_step, rfl⟩ | ⟨more, rfl, rest_eq⟩
    · exact ⟨network, next, frame, rest, stack, [], past, post, es, .still _ _, here, in_step,
        run, rfl, rfl⟩
    · obtain ⟨before, after, inner, below, above, earlier, pre, post, future, first, middle, own,
        second, rfl, rfl⟩ := ih rest_eq
      exact ⟨before, after, inner, below, above, network.stepEvents frame ++ earlier, pre, post,
        future, .step here first, middle, own, second, by simp, rfl⟩

end Run

/-- What a step leaves of the business below the top of the stack: everything. -/
theorem step_below (network : Network κ ν ρ σ) (frame : Frame κ ν ρ σ)
    (above below : List (Frame κ ν ρ σ)) :
    network.step (frame :: (above ++ below)) =
      ((network.step (frame :: above)).1, (network.step (frame :: above)).2 ++ below) := by
  cases frame with
  | script script =>
    cases script with
    | publish key value next =>
      simp only [step, stepScript]
      split <;> rfl
    | _ => rfl
  | fanOut key value waiting audience next =>
    cases waiting with
    | nil =>
      simp only [step]
      split <;> rfl
    | cons listener waiting => simp [step]
  | opening subscription leaf leaves next =>
    cases leaves with
    | nil => rfl
    | cons first leaves =>
      cases first with
      | own => simp [step]
      | subject key =>
        simp only [step]
        split <;> simp

/-- A run goes on in the same way above business that has to wait. -/
theorem Run.above {network last : Network κ ν ρ σ} {stack final : List (Frame κ ν ρ σ)}
    {es : List (Event κ ν)} (run : Run network stack es last final)
    (below : List (Frame κ ν ρ σ)) : Run network (stack ++ below) es last (final ++ below) := by
  induction run with
  | still => exact .still _ _
  | @step network next last frame rest stack final es here _ ih =>
    have moved : network.step (frame :: (rest ++ below)) = (next, stack ++ below) := by
      rw [step_below, here]
    exact .step moved ih

section Fuel

variable {network last : Network κ ν ρ σ} {stack : List (Frame κ ν ρ σ)}

/-- Settling within some fuel is a run that leaves nothing to do. -/
theorem run_of_settle {fuel : Nat} (h : network.settle fuel stack = some last) :
    Run network stack (network.events fuel stack) last [] := by
  induction fuel generalizing network stack with
  | zero => simp [settle] at h
  | succ fuel ih =>
    cases stack with
    | nil =>
      obtain rfl : network = last := by simpa [settle] using h
      exact .still _ _
    | cons frame rest => exact .step rfl (ih h)

/-- A run that leaves nothing to do is found with any fuel from some amount on. -/
theorem settle_of_run {es : List (Event κ ν)} (run : Run network stack es last []) :
    ∃ least, ∀ fuel, least ≤ fuel →
      network.settle fuel stack = some last ∧ network.events fuel stack = es := by
  generalize done : ([] : List (Frame κ ν ρ σ)) = final at run
  induction run with
  | still network stack =>
    subst done
    refine ⟨1, fun fuel enough => ?_⟩
    obtain ⟨fuel, rfl⟩ := Nat.exists_eq_add_of_le' enough
    exact ⟨rfl, rfl⟩
  | step here _ ih =>
    obtain ⟨least, ends⟩ := ih done
    refine ⟨least + 1, fun fuel enough => ?_⟩
    obtain ⟨fuel, rfl⟩ := Nat.exists_eq_add_of_le' enough
    obtain ⟨settled, watched⟩ := ends (fuel + least) (by omega)
    rw [show fuel + (least + 1) = fuel + least + 1 by omega]
    simp only [settle, events, here, settled, watched, and_self]

end Fuel

end Network

end Switchboard
