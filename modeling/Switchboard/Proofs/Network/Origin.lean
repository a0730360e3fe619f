import Switchboard.Proofs.Network.Tame

/-!
# Where published values come from

Every listener may publish certain values when it is called with certain
values. Then all that is published in a run of tame listeners comes from the
script that has begun it, or from a listener that has been called in the run
and may publish it.
-/
namespace Switchboard

variable {κ ν ρ σ : Type}

/-- A tame script that publishes nothing but what is allowed. -/
inductive Script.Confined (keeps : σ → Prop) (allowed : κ → ν → Prop) : Script κ ν ρ σ → Prop where
  | done : Confined keeps allowed .done
  | record {entry : ρ} {next : Script κ ν ρ σ} (h : Confined keeps allowed next) :
      Confined keeps allowed (.record entry next)
  | change {f : σ → σ} {next : Script κ ν ρ σ} (stays : ∀ memory, keeps memory → keeps (f memory))
      (h : Confined keeps allowed next) : Confined keeps allowed (.change f next)
  | consult {next : σ → Script κ ν ρ σ}
      (h : ∀ memory, keeps memory → Confined keeps allowed (next memory)) :
      Confined keeps allowed (.consult next)
  | publish {key : κ} {value : ν} {next : Nat → Script κ ν ρ σ} (fits : allowed key value)
      (h : ∀ n, Confined keeps allowed (next n)) : Confined keeps allowed (.publish key value next)

namespace Script

variable {keeps : σ → Prop} {allowed allowed' : κ → ν → Prop} {script later : Script κ ν ρ σ}

theorem Confined.tame (confined : script.Confined keeps allowed) : script.Tame keeps := by
  induction confined with
  | done => exact .done
  | record _ ih => exact .record ih
  | change stays _ ih => exact .change stays ih
  | consult _ ih => exact .consult ih
  | publish _ _ ih => exact .publish ih

theorem Confined.mono (confined : script.Confined keeps allowed)
    (more : ∀ key value, allowed key value → allowed' key value) :
    script.Confined keeps allowed' := by
  induction confined with
  | done => exact .done
  | record _ ih => exact .record ih
  | change stays _ ih => exact .change stays ih
  | consult _ ih => exact .consult ih
  | publish fits _ ih => exact .publish (more _ _ fits) ih

theorem Quiet.confined (quiet : script.Quiet keeps) : script.Confined keeps allowed := by
  induction quiet with
  | done => exact .done
  | record _ ih => exact .record ih
  | change stays _ ih => exact .change stays ih
  | consult _ ih => exact .consult ih

theorem Confined.followedBy (confined : script.Confined keeps allowed)
    (confined' : later.Confined keeps allowed) :
    (script.followedBy later).Confined keeps allowed := by
  induction confined with
  | done => exact confined'
  | record _ ih => exact .record ih
  | change stays _ ih => exact .change stays ih
  | consult _ ih => exact .consult ih
  | publish fits _ ih => exact .publish fits ih

end Script

/-- What a frame will go on with is confined. -/
def Frame.Confined (keeps : σ → Prop) (allowed : κ → ν → Prop) : Frame κ ν ρ σ → Prop
  | .script now => now.Confined keeps allowed
  | .fanOut _ _ _ _ next => ∀ n, (next n).Confined keeps allowed
  | .opening _ _ _ next => next.Confined keeps allowed

theorem Frame.Confined.mono {keeps : σ → Prop} {allowed allowed' : κ → ν → Prop}
    {frame : Frame κ ν ρ σ} (confined : frame.Confined keeps allowed)
    (more : ∀ key value, allowed key value → allowed' key value) :
    frame.Confined keeps allowed' := by
  cases frame with
  | script => exact Script.Confined.mono confined more
  | fanOut => exact fun n => Script.Confined.mono (confined n) more
  | opening => exact Script.Confined.mono confined more

/-- What the listeners of subscriptions may publish when they are called with a value. -/
abbrev Licence (κ ν : Type) := Nat → (α : Type) × α → κ → ν → Prop

namespace Event

/-- Some listener that has been called may have published a value. -/
def Licensed (may : Licence κ ν) (events : List (Event κ ν)) (key : κ) (value : ν) : Prop :=
  ∃ n call, .called n call ∈ events ∧ may n call key value

end Event

namespace Network

open Event

variable {keeps : σ → Prop} {may : Licence κ ν} {allowed : κ → ν → Prop}
variable {network next last : Network κ ν ρ σ}

/-- All listeners keep to what they may publish. -/
def Keeping (keeps : σ → Prop) (may : Licence κ ν) (network : Network κ ν ρ σ) : Prop :=
  ∀ (n : Nat) (s : Subscription κ ν ρ σ), network.subscriptions[n]? = some s →
    ∀ a, (s.listener a).Confined keeps (may n ⟨s.α, a⟩)

theorem Keeping.feed (keeping : Keeping keeps may network) (n leaf : Nat) (incoming : Option ν) :
    ∀ frame ∈ (network.feed n leaf incoming).2,
      frame.Confined keeps (Licensed may (network.feedEvents n leaf incoming)) := by
  intro frame member
  rcases network.feed_cases n leaf incoming with ⟨nobody, _⟩ | ⟨s, a, found, woken, fed⟩
  · rw [nobody] at member
    exact nomatch member
  · rw [woken] at member
    obtain rfl := List.mem_singleton.mp member
    refine Script.Confined.mono (keeping n s found a) fun key value fits => ?_
    rw [fed]
    exact ⟨n, ⟨s.α, a⟩, List.mem_cons_of_mem _ List.mem_cons_self, fits⟩

variable [DecidableEq κ] {frame : Frame κ ν ρ σ} {stack rest final : List (Frame κ ν ρ σ)}

omit [DecidableEq κ] in
/-- A feed publishes nothing by itself. -/
theorem published_not_fed (network : Network κ ν ρ σ) (n leaf : Nat) (incoming : Option ν) (key : κ)
    (value : ν) : .published key value ∉ network.feedEvents n leaf incoming := fun member =>
  network.still_feedEvents n leaf incoming _ member

/-- Whatever a step publishes was allowed to the frame on top. -/
theorem published_step {es : List (Event κ ν)} {frames : List (Frame κ ν ρ σ)}
    (top : frame.Confined keeps allowed) (transition : Transition network frame es next frames)
    {key : κ} {value : ν} (member : .published key value ∈ es) : allowed key value := by
  cases transition with
  | queued =>
    obtain ⟨rfl, rfl⟩ : key = _ ∧ value = _ := by simpa using member
    cases (show Script.Confined keeps allowed (.publish _ _ _) from top) with
    | publish fits => exact fits
  | begun =>
    obtain ⟨rfl, rfl⟩ : key = _ ∧ value = _ := by simpa using member
    cases (show Script.Confined keeps allowed (.publish _ _ _) from top) with
    | publish fits => exact fits
  | delivered => exact absurd member (published_not_fed _ _ _ _ _ _)
  | supplied => exact absurd member (published_not_fed _ _ _ _ _ _)
  | replayed => simp [published_not_fed] at member
  | _ => simp at member

/-- A confined script is replaced by what is confined in the same way. -/
theorem confined_script {script : Script κ ν ρ σ} (confined : script.Confined keeps allowed)
    (holds : keeps network.memory) (moves : network.step (.script script :: rest) = (next, stack)) :
    ∃ frames, stack = frames ++ rest ∧ ∀ f ∈ frames, f.Confined keeps allowed := by
  cases confined with
  | done =>
    obtain ⟨rfl, rfl⟩ := Prod.mk.inj moves
    exact ⟨[], rfl, nofun⟩
  | record h =>
    obtain ⟨rfl, rfl⟩ := Prod.mk.inj moves
    exact ⟨[.script _], rfl, List.forall_mem_singleton.mpr h⟩
  | change _ h =>
    obtain ⟨rfl, rfl⟩ := Prod.mk.inj moves
    exact ⟨[.script _], rfl, List.forall_mem_singleton.mpr h⟩
  | consult h =>
    obtain ⟨rfl, rfl⟩ := Prod.mk.inj moves
    exact ⟨[.script _], rfl, List.forall_mem_singleton.mpr (h _ holds)⟩
  | publish fits h =>
    simp only [Network.step, stepScript] at moves
    split at moves
    · obtain ⟨rfl, rfl⟩ := Prod.mk.inj moves
      exact ⟨[.script _], rfl, List.forall_mem_singleton.mpr (h _)⟩
    · obtain ⟨rfl, rfl⟩ := Prod.mk.inj moves
      exact ⟨[.fanOut _ _ _ _ _], rfl, List.forall_mem_singleton.mpr h⟩

/--
What takes the place of a fan-out or of an opening goes on as they would, or was woken by a feed
and is licensed by its call.
-/
theorem Keeping.confined_frames {es : List (Event κ ν)} {frames : List (Frame κ ν ρ σ)}
    (keeping : Keeping keeps may network) (top : frame.Confined keeps allowed)
    (other : ∀ script, frame ≠ .script script)
    (transition : Transition network frame es next frames) :
    ∀ f ∈ frames, f.Confined keeps fun key value =>
      allowed key value ∨ Licensed may es key value := by
  have stay {f : Frame κ ν ρ σ} (here : f.Confined keeps allowed) :
      f.Confined keeps fun key value => allowed key value ∨ Licensed may es key value :=
    here.mono fun _ _ => .inl
  cases transition with
  | delivered wakes =>
    refine List.forall_mem_append.mpr ⟨fun f woken => ?_, List.forall_mem_singleton.mpr (stay top)⟩
    rw [← wakes] at woken
    exact (keeping.feed _ _ _ f woken).mono fun _ _ => .inr
  | resumed => exact List.forall_mem_singleton.mpr (stay top)
  | @finished _ _ audience _ _ =>
    exact List.forall_mem_singleton.mpr (stay (f := .script _) (top audience))
  | attached => exact List.forall_mem_singleton.mpr (stay top)
  | @replayed key n leaf leaves go value woken current wakes =>
    have attached : Keeping keeps may (network.attach key n leaf) := keeping
    refine List.forall_mem_append.mpr ⟨fun f woken => ?_, List.forall_mem_singleton.mpr (stay top)⟩
    rw [← wakes] at woken
    refine (attached.feed n leaf _ f woken).mono fun _ _ licensed => .inr ?_
    obtain ⟨m, call, member, may_publish⟩ := licensed
    exact ⟨m, call, List.mem_cons_of_mem _ member, may_publish⟩
  | supplied wakes =>
    refine List.forall_mem_append.mpr ⟨fun f woken => ?_, List.forall_mem_singleton.mpr (stay top)⟩
    rw [← wakes] at woken
    exact (keeping.feed _ _ _ f woken).mono fun _ _ => .inr
  | opened => exact List.forall_mem_singleton.mpr (stay top)
  | _ => exact absurd rfl (other _)

/-- What one step publishes is allowed, and what it puts on the stack is allowed or licensed. -/
theorem Keeping.step (keeping : Keeping keeps may network) (holds : keeps network.memory)
    (confined : ∀ f ∈ frame :: rest, f.Confined keeps allowed)
    (moves : network.step (frame :: rest) = (next, stack)) :
    (∀ key value, .published key value ∈ network.stepEvents frame → allowed key value) ∧
      ∀ f ∈ stack, f.Confined keeps fun key value =>
        allowed key value ∨ Licensed may (network.stepEvents frame) key value := by
  obtain ⟨top, below⟩ := List.forall_mem_cons.mp confined
  have stay {f : Frame κ ν ρ σ} (here : f.Confined keeps allowed) :
      f.Confined keeps fun key value =>
        allowed key value ∨ Licensed may (network.stepEvents frame) key value :=
    here.mono fun _ _ => .inl
  obtain ⟨frames, rfl, transition⟩ := transition_of_step moves
  refine ⟨fun _ _ => published_step top transition,
    List.forall_mem_append.mpr ⟨?_, fun f member => stay (below f member)⟩⟩
  cases frame with
  | script script =>
    obtain ⟨frames', same, here⟩ := confined_script top holds moves
    obtain rfl := List.append_cancel_right same
    exact fun f member => stay (here f member)
  | fanOut => exact keeping.confined_frames top (fun _ => nofun) transition
  | opening => exact keeping.confined_frames top (fun _ => nofun) transition

omit [DecidableEq κ] in
theorem Keeping.persists (keeping : Keeping keeps may network) (same : network.Keeps next)
    (length : next.subscriptions.length = network.subscriptions.length) :
    Keeping keeps may next := by
  intro n s there a
  have small : n < network.subscriptions.length := by
    rw [← length]
    exact (List.getElem?_eq_some_iff.mp there).1
  have before := List.getElem?_eq_getElem small
  obtain ⟨state, after⟩ := same n _ before
  obtain rfl := Option.some.inj (there.symm.trans after)
  exact keeping n _ before a

/-- What a run publishes is allowed, or licensed by a call in the run. -/
theorem Keeping.run {es : List (Event κ ν)} (keeping : Keeping keeps may network)
    (tame : Tame keeps network stack) (confined : ∀ f ∈ stack, f.Confined keeps allowed)
    (run : Run network stack es last final) :
    ∀ key value, .published key value ∈ es → allowed key value ∨ Licensed may es key value := by
  induction run generalizing allowed with
  | still => exact nofun
  | @step network next last frame rest stack final es moves _ ih =>
    obtain ⟨tame', length⟩ := tame.step moves
    obtain ⟨here, confined'⟩ := keeping.step tame.holds confined moves
    have same : network.Keeps next := by
      obtain ⟨_, _, transition⟩ := transition_of_step moves
      exact transition.keeps
    intro key value member
    rcases List.mem_append.mp member with member | member
    · exact .inl (here key value member)
    · rcases ih (keeping.persists same length) tame' confined' key value member with
        (fits | ⟨n, call, called, may_publish⟩) | ⟨n, call, called, may_publish⟩
      · exact .inl fits
      · exact .inr ⟨n, call, List.mem_append_left _ called, may_publish⟩
      · exact .inr ⟨n, call, List.mem_append_right _ called, may_publish⟩

theorem published_of_publication {es : List (Event κ ν)} {key : κ} {value : ν}
    (member : value ∈ publications key es) : .published key value ∈ es := by
  induction es with
  | nil => simp at member
  | cons event es ih =>
    rw [publications_cons, List.mem_append] at member
    rcases member with now | later
    · cases event with
      | published key' value' =>
        by_cases same : key' = key
        · have this_one : value = value' := by simpa [asked?, same] using now
          rw [same, this_one]
          exact List.mem_cons_self
        · simp [asked?, same] at now
      | _ => simp [asked?] at now
    · exact List.mem_cons_of_mem _ (ih later)

/-- At rest, what has been published has set out. -/
theorem departures_at_rest {events : List (Event κ ν)} (sound : Sound events network []) (key : κ) :
    departures key events = publications key events := by
  rw [← sound.flowing.queue key, sound.flowing.empty key (sound.idle key), List.append_nil]

/-- Between two rests, what has set out has been published. -/
theorem published_of_departed {events es : List (Event κ ν)} (sound : Sound events network [])
    (sound' : Sound (events ++ es) next []) {key : κ} {value : ν}
    (departed : value ∈ departures key es) : .published key value ∈ es := by
  have all := departures_at_rest sound' key
  rw [departures_append, publications_append, departures_at_rest sound key] at all
  rw [List.append_cancel_left all] at departed
  exact published_of_publication departed

end Network

end Switchboard
