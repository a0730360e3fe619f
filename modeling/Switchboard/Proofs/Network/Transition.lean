import Switchboard.Proofs.Network.Event

/-!
# What a step can do

The steps of a network sorted by what they do to subjects, subscriptions and
the stack. Everything that is said of all runs is proved from this list.

A step takes one frame off the stack and puts others in its place; the frames
below stay as they are.
-/
namespace Switchboard

variable {κ ν ρ σ : Type}

namespace Subject

/-- A subject with one more value in its queue. -/
def queueing (subject : Subject ν) (value : ν) : Subject ν :=
  { subject with queue := subject.queue ++ [value] }

/-- A subject whose fan-outs are over. -/
def released (subject : Subject ν) : Subject ν := { subject with busy := false }

/-- A subject with one more listener at the end. -/
def joined (subject : Subject ν) (listener : Nat × Nat) : Subject ν :=
  { subject with listeners := subject.listeners ++ [listener] }

/-- A subject without the listeners that some registrations stand for. -/
def without [DecidableEq κ] (subject : Subject ν) (key : κ)
    (registrations : List (Registration κ)) : Subject ν :=
  { subject with
    listeners := subject.listeners.filter fun listener =>
      decide (⟨key, listener.1, listener.2⟩ ∉ registrations) }

/-- A subject that sends out a value. -/
def sending (subject : Subject ν) (value : ν) (queue : List ν) : Subject ν :=
  { subject with latest := some value, busy := true, queue := queue }

end Subject

namespace Network

/-- The leaf of a subscription with a given number. -/
def leafAt (network : Network κ ν ρ σ) (subscription leaf : Nat) : Option (Leaf κ) :=
  network.subscriptions[subscription]?.bind fun s => s.stream.leaves[leaf]?

section Feed

variable (network : Network κ ν ρ σ) (subscription leaf : Nat) (incoming : Option ν)

@[simp] theorem feed_subjects :
    (network.feed subscription leaf incoming).1.subjects = network.subjects := by
  unfold feed
  split
  · rfl
  · split <;> rfl

theorem feed_memory :
    (network.feed subscription leaf incoming).1.memory = network.memory := by
  unfold feed
  split
  · rfl
  · split <;> rfl

@[simp] theorem feed_length :
    (network.feed subscription leaf incoming).1.subscriptions.length =
      network.subscriptions.length := by
  unfold feed
  split
  · rfl
  · split <;> simp

/-- Taking in a value changes neither the stream of a subscription nor its listener. -/
theorem feed_stream (other : Nat) (s : Subscription κ ν ρ σ)
    (h : network.subscriptions[other]? = some s) :
    ∃ state, (network.feed subscription leaf incoming).1.subscriptions[other]? =
      some ⟨s.stream, state, s.listener⟩ := by
  unfold feed
  split
  · exact ⟨s.state, h⟩
  · rename_i stream state listener found
    split
    · exact ⟨s.state, h⟩
    · rename_i pushed value remarks _
      by_cases same : subscription = other
      · subst other
        obtain rfl : (⟨stream, state, listener⟩ : Subscription κ ν ρ σ) = s :=
          Option.some.inj (found.symm.trans h)
        refine ⟨pushed, ?_⟩
        obtain ⟨small, _⟩ := List.getElem?_eq_some_iff.mp found
        simp [small]
      · exact ⟨s.state, by simpa [List.getElem?_set_ne same] using h⟩

@[simp] theorem feed_leafAt (n l : Nat) :
    (network.feed subscription leaf incoming).1.leafAt n l = network.leafAt n l := by
  unfold leafAt
  cases h : network.subscriptions[n]? with
  | some s =>
    obtain ⟨state, h'⟩ := network.feed_stream subscription leaf incoming n s h
    simp [h']
  | none =>
    have beyond := List.getElem?_eq_none_iff.mp h
    rw [List.getElem?_eq_none (by simpa using beyond)]

/-- A feed leaves the other subscriptions alone. -/
theorem feed_other {network : Network κ ν ρ σ} {n m : Nat} (other : n ≠ m) (leaf : Nat)
    (incoming : Option ν) :
    (network.feed n leaf incoming).1.subscriptions[m]? = network.subscriptions[m]? := by
  unfold feed
  split
  · rfl
  · split
    · rfl
    · exact List.getElem?_set_ne other

theorem feed_woken : ∃ scripts : List (Script κ ν ρ σ),
    (network.feed subscription leaf incoming).2 = scripts.map .script := by
  unfold feed
  split
  · exact ⟨[], rfl⟩
  · split
    · exact ⟨[], rfl⟩
    · rename_i _ _ listener _ _ _ value _ _
      exact ⟨value.toList.map listener, by simp⟩

/-- What is true of all scripts and of a frame is true of scripts on top of that frame. -/
theorem forall_woken {good : Frame κ ν ρ σ → Prop} (all : ∀ script, good (.script script))
    (woken : List (Script κ ν ρ σ)) {below : Frame κ ν ρ σ} (here : good below) :
    ∀ frame ∈ woken.map .script ++ [below], good frame :=
  List.forall_mem_append.mpr
    ⟨List.forall_mem_map.mpr fun script _ => all script, List.forall_mem_singleton.mpr here⟩

/-- What is true of the scripts of all listeners is true of those that are woken. -/
theorem feed_listeners {good : Script κ ν ρ σ → Prop}
    (all : ∀ s ∈ network.subscriptions, ∀ a, good (s.listener a)) :
    (∀ s ∈ (network.feed subscription leaf incoming).1.subscriptions, ∀ a, good (s.listener a)) ∧
      ∀ frame ∈ (network.feed subscription leaf incoming).2,
        ∃ script, frame = .script script ∧ good script := by
  constructor
  · intro s member a
    obtain ⟨n, small, rfl⟩ := List.mem_iff_getElem.mp member
    rw [feed_length] at small
    obtain ⟨state, same⟩ := network.feed_stream subscription leaf incoming n _
      (List.getElem?_eq_getElem small)
    obtain ⟨_, same⟩ := List.getElem?_eq_some_iff.mp same
    revert a
    rw [same]
    exact all network.subscriptions[n] (List.getElem_mem small)
  · unfold feed
    intro frame member
    split at member
    · exact nomatch member
    · rename_i stream state listener found
      split at member
      · exact nomatch member
      · obtain ⟨a, _, rfl⟩ := List.mem_map.mp member
        exact ⟨_, rfl, all _ (List.mem_of_getElem? found) a⟩

end Feed

section Subjects

variable [DecidableEq κ] (network : Network κ ν ρ σ)

theorem lookup_setEntry (key other : κ) (subject : Subject ν) (entries : List (κ × Subject ν)) :
    (setEntry key subject entries).lookup other =
      if other = key then some subject else entries.lookup other := by
  induction entries with
  | nil =>
    by_cases h : other = key
    · simp [setEntry, h]
    · simp [setEntry, List.lookup_cons, List.lookup_nil, h, beq_eq_false_iff_ne.mpr h]
  | cons entry rest ih =>
    obtain ⟨first, old⟩ := entry
    by_cases here : key = first
    · subst first
      by_cases h : other = key
      · simp [setEntry, h]
      · simp [setEntry, List.lookup_cons, h, beq_eq_false_iff_ne.mpr h]
    · by_cases h : other = first
      · subst first
        simp [setEntry, here, Ne.symm here]
      · simp only [setEntry, if_neg here, List.lookup_cons, beq_eq_false_iff_ne.mpr h, ih]

theorem subject_setSubject (key other : κ) (subject : Subject ν) :
    (network.setSubject key subject).subject other =
      if other = key then subject else network.subject other := by
  unfold Network.subject setSubject
  rw [lookup_setEntry]
  split <;> rfl

@[simp] theorem subject_setSubject_self (key : κ) (subject : Subject ν) :
    (network.setSubject key subject).subject key = subject := by
  simp [subject_setSubject]

/-- What a subject is like depends on the entries of subjects alone. -/
theorem subject_congr {network network' : Network κ ν ρ σ}
    (same : network'.subjects = network.subjects) : network'.subject = network.subject := by
  funext key
  simp only [subject, same]

@[simp] theorem feed_subject (subscription leaf : Nat) (incoming : Option ν) :
    (network.feed subscription leaf incoming).1.subject = network.subject :=
  subject_congr (network.feed_subjects subscription leaf incoming)

/-- The network after a leaf has joined the listeners of a subject. -/
def attach (key : κ) (subscription leaf : Nat) : Network κ ν ρ σ :=
  network.setSubject key ((network.subject key).joined (subscription, leaf))

/-- The listeners that are left when registrations are taken back. -/
theorem subject_detach (registrations : List (Registration κ)) (key : κ) :
    (network.detach registrations).subject key =
      (network.subject key).without key registrations := by
  induction registrations generalizing network with
  | nil => simp [detach, Subject.without, List.filter_eq_self.mpr]
  | cons registration rest ih =>
    have unfolded : network.detach (registration :: rest) =
        (network.detachOne registration).detach rest := rfl
    rw [unfolded, ih]
    obtain ⟨place, subscription, leaf⟩ := registration
    by_cases h : key = place
    · subst h
      simp [detachOne, Subject.without, List.filter_filter, not_or, Bool.and_comm, Prod.ext_iff]
    · simp [detachOne, Subject.without, subject_setSubject, h]

theorem subject_setOut (key other : κ) (value : ν) (queue : List ν) :
    (network.setOut key value queue).subject other =
      if other = key then (network.subject key).sending value queue
      else network.subject other := by
  unfold setOut
  rw [subject_setSubject]
  rfl

/-- Nobody comes or goes where a subject changes in other ways. -/
theorem listeners_setSubject {key other : κ} {subject : Subject ν}
    (same : subject.listeners = (network.subject key).listeners) :
    ((network.setSubject key subject).subject other).listeners =
      (network.subject other).listeners := by
  rw [subject_setSubject]
  split
  · rename_i here
    rw [here, same]
  · rfl

theorem listeners_setOut (key : κ) (value : ν) (queue : List ν) (other : κ) :
    ((network.setOut key value queue).subject other).listeners =
      (network.subject other).listeners := by
  unfold setOut
  exact network.listeners_setSubject rfl

/-- A leaf that joins stands behind all other listeners. -/
theorem listeners_attach (key : κ) (subscription leaf : Nat) (other : κ) :
    ((network.attach key subscription leaf).subject other).listeners =
      if other = key then (network.subject other).listeners ++ [(subscription, leaf)]
      else (network.subject other).listeners := by
  rw [attach, subject_setSubject]
  split
  · rename_i here
    rw [here]
    rfl
  · rfl

end Subjects

section Transitions

variable [DecidableEq κ]

/--
One step, by what it is about: the network and the frame on top before it, its events, and the
network and the frames in place of that frame after it.
-/
inductive Transition (network : Network κ ν ρ σ) :
    Frame κ ν ρ σ → List (Event κ ν) → Network κ ν ρ σ → List (Frame κ ν ρ σ) → Prop where
  /-- Something between the script and the memory or the journal. -/
  | aside {script : Script κ ν ρ σ} {next : Network κ ν ρ σ} (goes : List (Script κ ν ρ σ))
      (subjects : next.subjects = network.subjects)
      (subscriptions : next.subscriptions = network.subscriptions) :
      Transition network (.script script) [] next (goes.map .script)
  | queued {key : κ} {value : ν} {go : Nat → Script κ ν ρ σ}
      (busy : (network.subject key).busy = true) :
      Transition network (.script (.publish key value go)) [.published key value]
        (network.setSubject key ((network.subject key).queueing value))
        [.script (go (network.subject key).listeners.length)]
  | begun {key : κ} {value : ν} {go : Nat → Script κ ν ρ σ}
      (idle : (network.subject key).busy = false) :
      Transition network (.script (.publish key value go))
        [.published key value, .setOut key value] (network.setOut key value [])
        [.fanOut key value (network.subject key).listeners
          (network.subject key).listeners.length go]
  | subscribed {α : Type} {stream : Stream κ ν ρ α} {listener : α → Script κ ν ρ σ}
      {go : Handle κ → Script κ ν ρ σ} :
      Transition network (.script (.subscribe stream listener go))
        [.subscribed network.subscriptions.length]
        { network with
          subscriptions := network.subscriptions ++ [⟨stream, stream.initial, listener⟩] }
        [.opening network.subscriptions.length 0 stream.leaves
          (go (stream.handle network.subscriptions.length))]
  | detached {registrations : List (Registration κ)} {go : Script κ ν ρ σ} :
      Transition network (.script (.detach registrations go)) (registrations.map .detached)
        (network.detach registrations) [.script go]
  | delivered {key : κ} {value : ν} {subscription leaf : Nat} {waiting : List (Nat × Nat)}
      {audience : Nat} {go : Nat → Script κ ν ρ σ} {woken : List (Script κ ν ρ σ)}
      (wakes : (network.feed subscription leaf (some value)).2 = woken.map .script) :
      Transition network (.fanOut key value ((subscription, leaf) :: waiting) audience go)
        (network.feedEvents subscription leaf (some value))
        (network.feed subscription leaf (some value)).1
        (woken.map .script ++ [.fanOut key value waiting audience go])
  | resumed {key : κ} {last value : ν} {audience : Nat} {go : Nat → Script κ ν ρ σ}
      {queue : List ν} (head : (network.subject key).queue = value :: queue) :
      Transition network (.fanOut key last [] audience go) [.setOut key value]
        (network.setOut key value queue)
        [.fanOut key value (network.subject key).listeners
          (network.subject key).listeners.length go]
  | finished {key : κ} {last : ν} {audience : Nat} {go : Nat → Script κ ν ρ σ}
      (empty : (network.subject key).queue = []) :
      Transition network (.fanOut key last [] audience go) []
        (network.setSubject key (network.subject key).released)
        [.script (go audience)]
  | attached {key : κ} {subscription leaf : Nat} {leaves : List (Leaf κ)}
      {go : Script κ ν ρ σ} (silent : (network.subject key).latest = none) :
      Transition network (.opening subscription leaf (.subject key :: leaves) go)
        [.attached ⟨key, subscription, leaf⟩ none] (network.attach key subscription leaf)
        [.opening subscription (leaf + 1) leaves go]
  | replayed {key : κ} {subscription leaf : Nat} {leaves : List (Leaf κ)}
      {go : Script κ ν ρ σ} {value : ν} {woken : List (Script κ ν ρ σ)}
      (current : (network.subject key).latest = some value)
      (wakes : ((network.attach key subscription leaf).feed subscription leaf (some value)).2 =
        woken.map .script) :
      Transition network (.opening subscription leaf (.subject key :: leaves) go)
        (.attached ⟨key, subscription, leaf⟩ (some value) ::
          (network.attach key subscription leaf).feedEvents subscription leaf (some value))
        ((network.attach key subscription leaf).feed subscription leaf (some value)).1
        (woken.map .script ++ [.opening subscription (leaf + 1) leaves go])
  | supplied {subscription leaf : Nat} {leaves : List (Leaf κ)} {go : Script κ ν ρ σ}
      {woken : List (Script κ ν ρ σ)}
      (wakes : (network.feed subscription leaf none).2 = woken.map .script) :
      Transition network (.opening subscription leaf (.own :: leaves) go)
        (network.feedEvents subscription leaf none) (network.feed subscription leaf none).1
        (woken.map .script ++ [.opening subscription (leaf + 1) leaves go])
  | opened {subscription leaf : Nat} {go : Script κ ν ρ σ} :
      Transition network (.opening subscription leaf [] go) [] network [.script go]

section Steps

variable {network next : Network κ ν ρ σ} {rest stack : List (Frame κ ν ρ σ)}

theorem transition_of_script {script : Script κ ν ρ σ}
    (h : network.step (.script script :: rest) = (next, stack)) :
    ∃ frames, stack = frames ++ rest ∧
      Transition network (.script script) (network.scriptEvents script) next frames := by
  cases script with
  | done =>
    obtain ⟨rfl, rfl⟩ := Prod.mk.inj h
    exact ⟨[], rfl, .aside [] rfl rfl⟩
  | record entry go =>
    obtain ⟨rfl, rfl⟩ := Prod.mk.inj h
    exact ⟨_, rfl, .aside [go] rfl rfl⟩
  | change f go =>
    obtain ⟨rfl, rfl⟩ := Prod.mk.inj h
    exact ⟨_, rfl, .aside [go] rfl rfl⟩
  | consult go =>
    obtain ⟨rfl, rfl⟩ := Prod.mk.inj h
    exact ⟨_, rfl, .aside [go network.memory] rfl rfl⟩
  | publish key value go =>
    simp only [step, stepScript] at h
    by_cases busy : (network.subject key).busy = true
    · rw [if_pos busy] at h
      obtain ⟨rfl, rfl⟩ := Prod.mk.inj h
      simp only [scriptEvents, if_pos busy]
      exact ⟨_, rfl, .queued busy⟩
    · rw [if_neg busy] at h
      obtain ⟨rfl, rfl⟩ := Prod.mk.inj h
      simp only [scriptEvents, if_neg busy]
      exact ⟨_, rfl, .begun (by simpa using busy)⟩
  | subscribe stream listener go =>
    obtain ⟨rfl, rfl⟩ := Prod.mk.inj h
    exact ⟨_, rfl, .subscribed⟩
  | detach registrations go =>
    obtain ⟨rfl, rfl⟩ := Prod.mk.inj h
    exact ⟨_, rfl, .detached⟩

theorem transition_of_fanOut {key : κ} {value : ν} {waiting : List (Nat × Nat)} {audience : Nat}
    {go : Nat → Script κ ν ρ σ}
    (h : network.step (.fanOut key value waiting audience go :: rest) = (next, stack)) :
    ∃ frames, stack = frames ++ rest ∧ Transition network (.fanOut key value waiting audience go)
      (network.stepEvents (.fanOut key value waiting audience go)) next frames := by
  cases waiting with
  | cons listener waiting =>
    obtain ⟨subscription, leaf⟩ := listener
    obtain ⟨woken, wakes⟩ := network.feed_woken subscription leaf (some value)
    simp only [step, wakes] at h
    obtain ⟨rfl, rfl⟩ := Prod.mk.inj h
    exact ⟨_, by simp, .delivered wakes⟩
  | nil =>
    cases waits : (network.subject key).queue with
    | cons next queue =>
      simp only [step, waits] at h
      obtain ⟨rfl, rfl⟩ := Prod.mk.inj h
      simp only [stepEvents, waits]
      exact ⟨_, rfl, .resumed waits⟩
    | nil =>
      have moved : network.step (.fanOut key value [] audience go :: rest) =
          (network.setSubject key (network.subject key).released,
            .script (go audience) :: rest) := by
        simp [step, Subject.released, waits]
      obtain ⟨rfl, rfl⟩ := Prod.mk.inj (moved.symm.trans h)
      simp only [stepEvents, waits]
      exact ⟨_, rfl, .finished waits⟩

theorem transition_of_opening {subscription leaf : Nat} {leaves : List (Leaf κ)}
    {go : Script κ ν ρ σ}
    (h : network.step (.opening subscription leaf leaves go :: rest) = (next, stack)) :
    ∃ frames, stack = frames ++ rest ∧ Transition network (.opening subscription leaf leaves go)
      (network.stepEvents (.opening subscription leaf leaves go)) next frames := by
  cases leaves with
  | nil =>
    obtain ⟨rfl, rfl⟩ := Prod.mk.inj h
    exact ⟨_, rfl, .opened⟩
  | cons first leaves =>
    cases first with
    | own =>
      obtain ⟨woken, wakes⟩ := network.feed_woken subscription leaf none
      simp only [step, wakes] at h
      obtain ⟨rfl, rfl⟩ := Prod.mk.inj h
      exact ⟨_, by simp, .supplied wakes⟩
    | subject key =>
      cases has : (network.subject key).latest with
      | some value =>
        obtain ⟨woken, wakes⟩ :=
          (network.attach key subscription leaf).feed_woken subscription leaf (some value)
        have moved : network.step (.opening subscription leaf (.subject key :: leaves) go ::
            rest) = (((network.attach key subscription leaf).feed subscription leaf
              (some value)).1, woken.map .script ++
              .opening subscription (leaf + 1) leaves go :: rest) := by
          rw [← wakes]
          simp [step, attach, Subject.joined, has]
        obtain ⟨rfl, rfl⟩ := Prod.mk.inj (moved.symm.trans h)
        simp only [stepEvents, has]
        exact ⟨_, by simp, .replayed has wakes⟩
      | none =>
        have moved : network.step (.opening subscription leaf (.subject key :: leaves) go ::
            rest) = (network.attach key subscription leaf,
              .opening subscription (leaf + 1) leaves go :: rest) := by
          simp [step, attach, Subject.joined, has]
        obtain ⟨rfl, rfl⟩ := Prod.mk.inj (moved.symm.trans h)
        simp only [stepEvents, has]
        exact ⟨_, rfl, .attached has⟩

/-- Every step is one of these. -/
theorem transition_of_step {frame : Frame κ ν ρ σ}
    (h : network.step (frame :: rest) = (next, stack)) :
    ∃ frames, stack = frames ++ rest ∧
      Transition network frame (network.stepEvents frame) next frames := by
  cases frame with
  | script => exact transition_of_script h
  | fanOut => exact transition_of_fanOut h
  | opening => exact transition_of_opening h

end Steps

end Transitions

end Network

end Switchboard
