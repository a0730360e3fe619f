import Switchboard.Proofs.Network.Transition

/-!
# The traffic of subjects

What the subjects do in a run, told from its events. A subject sends out its
values one at a time and in the order in which they were published; what it
has not sent out yet stands in its queue, and its latest value is the one that
set out last. It is busy as long as one of its values is on its way, and then
exactly one frame of the stack carries that value.
-/
namespace Switchboard

variable {κ ν ρ σ : Type}

namespace Event

section

variable [DecidableEq κ]

/-- The values among pairs that belong to a key. -/
def valuesAt (key : κ) (pairs : List (κ × ν)) : List ν :=
  pairs.filterMap fun pair => if pair.1 = key then some pair.2 else none

@[simp] theorem valuesAt_nil (key : κ) : valuesAt key ([] : List (κ × ν)) = [] := rfl

@[simp] theorem valuesAt_cons (key : κ) (pair : κ × ν) (pairs : List (κ × ν)) :
    valuesAt key (pair :: pairs) =
      if pair.1 = key then pair.2 :: valuesAt key pairs else valuesAt key pairs := by
  by_cases h : pair.1 = key <;> simp [valuesAt, h]

@[simp] theorem valuesAt_append (key : κ) (before after : List (κ × ν)) :
    valuesAt key (before ++ after) = valuesAt key before ++ valuesAt key after := by
  simp [valuesAt]

end

def sent? : Event κ ν → Option (κ × ν)
  | .setOut key value => some (key, value)
  | _ => none

def asked? : Event κ ν → Option (κ × ν)
  | .published key value => some (key, value)
  | _ => none

/-- What has set out, with its subjects. -/
def sent (events : List (Event κ ν)) : List (κ × ν) := events.filterMap sent?

/-- What scripts have asked to be published, with its subjects. -/
def asked (events : List (Event κ ν)) : List (κ × ν) := events.filterMap asked?

theorem sent_cons (event : Event κ ν) (events : List (Event κ ν)) :
    sent (event :: events) = (sent? event).toList ++ sent events := by
  unfold sent
  cases h : sent? event with
  | none => simp [h]
  | some pair => simp [h]

theorem asked_cons (event : Event κ ν) (events : List (Event κ ν)) :
    asked (event :: events) = (asked? event).toList ++ asked events := by
  unfold asked
  cases h : asked? event with
  | none => simp [h]
  | some pair => simp [h]

@[simp] theorem sent_nil : sent ([] : List (Event κ ν)) = [] := rfl

@[simp] theorem sent_append (before after : List (Event κ ν)) :
    sent (before ++ after) = sent before ++ sent after := by
  simp [sent]

@[simp] theorem asked_append (before after : List (Event κ ν)) :
    asked (before ++ after) = asked before ++ asked after := by
  simp [asked]

variable [DecidableEq κ]

/-- The values of a subject whose fan-out has begun, in this order. -/
def departures (key : κ) (events : List (Event κ ν)) : List ν := valuesAt key (sent events)

/-- The values that were to be published by a subject, in this order. -/
def publications (key : κ) (events : List (Event κ ν)) : List ν := valuesAt key (asked events)

@[simp] theorem departures_nil (key : κ) : departures key ([] : List (Event κ ν)) = [] := rfl

@[simp] theorem publications_nil (key : κ) :
    publications key ([] : List (Event κ ν)) = [] := rfl

@[simp] theorem departures_cons (key : κ) (event : Event κ ν) (events : List (Event κ ν)) :
    departures key (event :: events) =
      valuesAt key (sent? event).toList ++ departures key events := by
  simp [departures, sent_cons]

@[simp] theorem publications_cons (key : κ) (event : Event κ ν) (events : List (Event κ ν)) :
    publications key (event :: events) =
      valuesAt key (asked? event).toList ++ publications key events := by
  simp [publications, asked_cons]

@[simp] theorem departures_append (key : κ) (before after : List (Event κ ν)) :
    departures key (before ++ after) = departures key before ++ departures key after := by
  simp [departures]

@[simp] theorem publications_append (key : κ) (before after : List (Event κ ν)) :
    publications key (before ++ after) =
      publications key before ++ publications key after := by
  simp [publications]

end Event

namespace Network

/-- Feeding is one event that names the leaf, and the calls that come of it. -/
theorem feedEvents_eq (network : Network κ ν ρ σ) (subscription leaf : Nat)
    (incoming : Option ν) :
    ∃ calls : List ((α : Type) × α), network.feedEvents subscription leaf incoming =
      .fed subscription leaf incoming :: calls.map (.called subscription) := by
  unfold feedEvents
  split
  · exact ⟨[], rfl⟩
  · split
    · exact ⟨[], rfl⟩
    · rename_i pushed _
      exact ⟨pushed.value.toList.map (Sigma.mk _), by simp⟩

/--
Feeding wakes nobody, or it calls the listener of the subscription once, and then its script is
there to be run.
-/
theorem feed_cases (network : Network κ ν ρ σ) (n leaf : Nat) (incoming : Option ν) :
    ((network.feed n leaf incoming).2 = [] ∧
      network.feedEvents n leaf incoming = [.fed n leaf incoming]) ∨
    ∃ (s : Subscription κ ν ρ σ) (a : s.α), network.subscriptions[n]? = some s ∧
      (network.feed n leaf incoming).2 = [.script (s.listener a)] ∧
      network.feedEvents n leaf incoming = [.fed n leaf incoming, .called n ⟨s.α, a⟩] := by
  unfold feed feedEvents
  cases found : network.subscriptions[n]? with
  | none => exact .inl ⟨rfl, rfl⟩
  | some s =>
    obtain ⟨stream, state, listener⟩ := s
    cases pushed : stream.push state leaf incoming with
    | error beyond => exact .inl (by simp only [pushed, and_self])
    | ok after =>
      obtain ⟨_, value, _⟩ := after
      cases value with
      | none => exact .inl (by simp [pushed])
      | some a => exact .inr ⟨_, a, rfl, by simp [pushed], by simp [pushed]⟩

/-- What calls have nothing to do with does not see them. -/
theorem filterMap_called {β : Type _} {read : Event κ ν → Option β} {subscription : Nat}
    (blind : ∀ value, read (.called subscription value) = none)
    (calls : List (Σ α : Type, α)) :
    (calls.map (Event.called subscription)).filterMap read = [] := by
  rw [List.filterMap_map]
  exact List.filterMap_eq_nil_iff.mpr fun value _ => blind value

@[simp] theorem sent_feedEvents (network : Network κ ν ρ σ) (subscription leaf : Nat)
    (incoming : Option ν) : Event.sent (network.feedEvents subscription leaf incoming) = [] := by
  obtain ⟨calls, h⟩ := network.feedEvents_eq subscription leaf incoming
  rw [h]
  exact filterMap_called (fun _ => rfl) calls

@[simp] theorem asked_feedEvents (network : Network κ ν ρ σ) (subscription leaf : Nat)
    (incoming : Option ν) :
    Event.asked (network.feedEvents subscription leaf incoming) = [] := by
  obtain ⟨calls, h⟩ := network.feedEvents_eq subscription leaf incoming
  rw [h]
  exact filterMap_called (fun _ => rfl) calls

end Network

/-- The value that a frame takes to listeners, with its subject. -/
def Frame.load? : Frame κ ν ρ σ → Option (κ × ν)
  | .fanOut key value .. => some (key, value)
  | .script _ | .opening .. => none

/-- The values that are on their way, from the top of the stack. -/
def loads (stack : List (Frame κ ν ρ σ)) : List (κ × ν) := stack.filterMap Frame.load?

/-- The subjects whose values are on their way. -/
def carried (stack : List (Frame κ ν ρ σ)) : List κ := (loads stack).map Prod.fst

@[simp] theorem loads_append (above below : List (Frame κ ν ρ σ)) :
    loads (above ++ below) = loads above ++ loads below := by
  simp [loads]

theorem loads_cons (frame : Frame κ ν ρ σ) (rest : List (Frame κ ν ρ σ)) :
    loads (frame :: rest) = loads [frame] ++ loads rest :=
  loads_append [frame] rest

theorem carried_cons (frame : Frame κ ν ρ σ) (rest : List (Frame κ ν ρ σ)) :
    carried (frame :: rest) = carried [frame] ++ carried rest := by
  rw [carried, loads_cons, List.map_append, ← carried, ← carried]

@[simp] theorem loads_scripts (scripts : List (Script κ ν ρ σ)) :
    loads (scripts.map (Frame.script (κ := κ) (ν := ν) (ρ := ρ) (σ := σ))) = [] := by
  simp [loads, Frame.load?]

@[simp] theorem loads_script (script : Script κ ν ρ σ) (rest : List (Frame κ ν ρ σ)) :
    loads (.script script :: rest) = loads rest := rfl

@[simp] theorem loads_fanOut (key : κ) (value : ν) (waiting : List (Nat × Nat))
    (audience : Nat) (go : Nat → Script κ ν ρ σ) (rest : List (Frame κ ν ρ σ)) :
    loads (.fanOut key value waiting audience go :: rest) = (key, value) :: loads rest := rfl

@[simp] theorem loads_opening (subscription leaf : Nat) (leaves : List (Leaf κ))
    (go : Script κ ν ρ σ) (rest : List (Frame κ ν ρ σ)) :
    loads (.opening subscription leaf leaves go :: rest) = loads rest := rfl

@[simp] theorem carried_script (script : Script κ ν ρ σ) (rest : List (Frame κ ν ρ σ)) :
    carried (.script script :: rest) = carried rest := rfl

@[simp] theorem carried_fanOut (key : κ) (value : ν) (waiting : List (Nat × Nat))
    (audience : Nat) (go : Nat → Script κ ν ρ σ) (rest : List (Frame κ ν ρ σ)) :
    carried (.fanOut key value waiting audience go :: rest) = key :: carried rest := rfl

theorem mem_loads {key : κ} {value : ν} {waiting : List (Nat × Nat)} {audience : Nat}
    {go : Nat → Script κ ν ρ σ} {stack : List (Frame κ ν ρ σ)}
    (h : .fanOut key value waiting audience go ∈ stack) : (key, value) ∈ loads stack :=
  List.mem_filterMap.mpr ⟨_, h, rfl⟩

theorem mem_carried {key : κ} {value : ν} {waiting : List (Nat × Nat)} {audience : Nat}
    {go : Nat → Script κ ν ρ σ} {stack : List (Frame κ ν ρ σ)}
    (h : .fanOut key value waiting audience go ∈ stack) : key ∈ carried stack :=
  List.mem_map_of_mem (mem_loads h)

variable [DecidableEq κ]

namespace Network

open Event

/-- The subjects of a network agree with the events that have led to it. -/
structure Flowing (events : List (Event κ ν)) (network : Network κ ν ρ σ)
    (stack : List (Frame κ ν ρ σ)) : Prop where
  single : (carried stack).Nodup
  busy : ∀ key, (network.subject key).busy = true ↔ key ∈ carried stack
  empty : ∀ key, (network.subject key).busy = false → (network.subject key).queue = []
  queue : ∀ key,
    departures key events ++ (network.subject key).queue = publications key events
  latest : ∀ key, (network.subject key).latest = (departures key events).getLast?
  carrying : ∀ load ∈ loads stack, (network.subject load.1).latest = some load.2

/-- Two subjects that differ in their listeners at most. -/
def SameTraffic (one other : Subject ν) : Prop :=
  one.busy = other.busy ∧ one.queue = other.queue ∧ one.latest = other.latest

theorem sameTraffic_attach (network : Network κ ν ρ σ) (place : κ) (subscription leaf : Nat)
    (key : κ) :
    SameTraffic ((network.attach place subscription leaf).subject key) (network.subject key) := by
  unfold attach
  rw [subject_setSubject]
  split
  · rename_i here
    subst here
    exact ⟨rfl, rfl, rfl⟩
  · exact ⟨rfl, rfl, rfl⟩

namespace Flowing

variable {events es : List (Event κ ν)} {network next : Network κ ν ρ σ}
variable {frame : Frame κ ν ρ σ} {frames rest : List (Frame κ ν ρ σ)}

theorem start (memory : σ) (program : Script κ ν ρ σ) :
    Flowing [] (Network.start memory) [.script program] where
  single := List.nodup_nil
  busy _ := by simp [Network.start, subject, Subject.fresh, carried, loads, Frame.load?]
  empty _ _ := rfl
  queue _ := rfl
  latest _ := rfl
  carrying _ h := nomatch h

/-- Nothing changes with a step that leaves the subjects and the values on their way alone. -/
theorem calm (flowing : Flowing events network (frame :: rest))
    (same : ∀ key, SameTraffic (next.subject key) (network.subject key))
    (silent : sent es = [] ∧ asked es = []) (carries : loads frames = loads [frame]) :
    Flowing (events ++ es) next (frames ++ rest) := by
  have same_loads : loads (frames ++ rest) = loads (frame :: rest) := by
    rw [loads_append, carries, ← loads_cons]
  have stack : carried (frames ++ rest) = carried (frame :: rest) := by
    rw [carried, same_loads, ← carried]
  have none_sent (key : κ) : departures key es = [] := by simp [departures, silent.1]
  have none_asked (key : κ) : publications key es = [] := by simp [publications, silent.2]
  refine ⟨?_, ?_, ?_, ?_, ?_, ?_⟩
  · rw [stack]
    exact flowing.single
  · intro key
    rw [stack, (same key).1]
    exact flowing.busy key
  · intro key idle
    rw [(same key).1] at idle
    rw [(same key).2.1]
    exact flowing.empty key idle
  · intro key
    rw [(same key).2.1, departures_append, publications_append, none_sent, none_asked,
      List.append_nil, List.append_nil]
    exact flowing.queue key
  · intro key
    rw [(same key).2.2, departures_append, none_sent, List.append_nil]
    exact flowing.latest key
  · intro load member
    rw [same_loads] at member
    rw [(same load.1).2.2]
    exact flowing.carrying load member

theorem queued {key : κ} {value : ν} {go : Nat → Script κ ν ρ σ}
    (flowing : Flowing events network (.script (.publish key value go) :: rest))
    (busy : (network.subject key).busy = true) (after : Script κ ν ρ σ) :
    Flowing (events ++ [.published key value])
      (network.setSubject key ((network.subject key).queueing value)) (.script after :: rest) where
  single := flowing.single
  busy other := by
    rw [subject_setSubject]
    split
    · rename_i here
      subst here
      simpa [Subject.queueing] using flowing.busy other
    · simpa using flowing.busy other
  empty other idle := by
    rw [subject_setSubject] at idle ⊢
    split at idle
    · rw [Subject.queueing, busy] at idle
      cases idle
    · rename_i elsewhere
      rw [if_neg elsewhere]
      exact flowing.empty other idle
  queue other := by
    have before := flowing.queue other
    rw [subject_setSubject]
    by_cases here : other = key
    · subst here
      simp [Subject.queueing, ← before, sent?, asked?]
    · have elsewhere : key ≠ other := Ne.symm here
      simpa [here, elsewhere, sent?, asked?] using before
  latest other := by
    have before := flowing.latest other
    rw [subject_setSubject]
    split
    · rename_i here
      subst here
      simpa [Subject.queueing, sent?] using before
    · simpa [sent?] using before
  carrying load member := by
    have before := flowing.carrying load member
    rw [subject_setSubject]
    split
    · rename_i here
      rw [here] at before
      exact before
    · exact before

/-- Nothing of an idle subject is on its way. -/
theorem not_mem_carried {stack : List (Frame κ ν ρ σ)} {key : κ}
    (flowing : Flowing events network stack) (idle : (network.subject key).busy = false) :
    key ∉ carried stack := by
  intro present
  have busy := (flowing.busy key).mpr present
  rw [idle] at busy
  cases busy

/-- A value sets out from a subject that has nothing else on its way. -/
theorem sending {key : κ} {value : ν} {queue : List ν}
    (flowing : Flowing events network (frame :: rest)) (alone : key ∉ carried rest)
    (own : ∀ place ∈ carried [frame], place = key) (out : sent es = [(key, value)])
    (balance : departures key events ++ value :: queue = publications key (events ++ es))
    (unasked : ∀ other, other ≠ key → publications other es = [])
    (waiting : List (Nat × Nat)) (audience : Nat) (go : Nat → Script κ ν ρ σ) :
    Flowing (events ++ es) (network.setOut key value queue)
      (.fanOut key value waiting audience go :: rest) where
  single := by
    have single := flowing.single
    rw [carried_cons] at single
    exact List.nodup_cons.mpr ⟨alone, (List.nodup_append.mp single).2.1⟩
  busy other := by
    rw [subject_setOut, carried_fanOut, List.mem_cons]
    split
    · rename_i here
      simp [here, Subject.sending]
    · rename_i elsewhere
      have not_top : other ∉ carried [frame] := fun top => elsewhere (own other top)
      rw [flowing.busy other, carried_cons, List.mem_append]
      simp [elsewhere, not_top]
  empty other h := by
    rw [subject_setOut] at h ⊢
    split at h
    · cases h
    · rename_i elsewhere
      rw [if_neg elsewhere]
      exact flowing.empty other h
  queue other := by
    rw [subject_setOut]
    by_cases here : other = key
    · subst here
      rw [if_pos rfl, ← balance]
      simp [Subject.sending, departures, out]
    · have elsewhere : key ≠ other := Ne.symm here
      rw [if_neg here, publications_append, unasked other here, ← flowing.queue other]
      simp [departures, out, elsewhere]
  latest other := by
    rw [subject_setOut]
    by_cases here : other = key
    · subst here
      simp [Subject.sending, departures, out]
    · have elsewhere : key ≠ other := Ne.symm here
      rw [if_neg here, flowing.latest other]
      simp [departures, out, elsewhere]
  carrying load member := by
    rw [subject_setOut]
    rcases List.mem_cons.mp member with rfl | below
    · simp [Subject.sending]
    · have elsewhere : load.1 ≠ key := by
        rintro rfl
        exact alone (List.mem_map_of_mem below)
      rw [if_neg elsewhere]
      refine flowing.carrying load ?_
      rw [loads_cons]
      exact List.mem_append_right _ below

theorem finished {key : κ} {last : ν} {audience : Nat} {go : Nat → Script κ ν ρ σ}
    (flowing : Flowing events network (.fanOut key last [] audience go :: rest))
    (none_left : (network.subject key).queue = []) (after : Script κ ν ρ σ) :
    Flowing (events ++ []) (network.setSubject key (network.subject key).released)
      (.script after :: rest) where
  single := (List.nodup_cons.mp flowing.single).2
  busy other := by
    have alone : key ∉ carried rest := (List.nodup_cons.mp flowing.single).1
    rw [subject_setSubject, carried_script]
    split
    · rename_i here
      subst here
      simpa [Subject.released] using alone
    · rename_i elsewhere
      simpa [elsewhere] using flowing.busy other
  empty other h := by
    rw [subject_setSubject] at h ⊢
    split
    · rename_i here
      subst here
      exact none_left
    · rename_i elsewhere
      rw [if_neg elsewhere] at h
      exact flowing.empty other h
  queue other := by
    have before := flowing.queue other
    rw [subject_setSubject, List.append_nil]
    split
    · rename_i here
      subst here
      exact before
    · exact before
  latest other := by
    have before := flowing.latest other
    rw [subject_setSubject, List.append_nil]
    split
    · rename_i here
      subst here
      exact before
    · exact before
  carrying load member := by
    have before := flowing.carrying load (List.mem_cons_of_mem _ member)
    rw [subject_setSubject]
    split
    · rename_i here
      rw [here] at before
      exact before
    · exact before

/-- One step keeps subjects and events in agreement. -/
theorem step (flowing : Flowing events network (frame :: rest))
    (transition : Transition network frame es next frames) :
    Flowing (events ++ es) next (frames ++ rest) := by
  have same_feed (before : Network κ ν ρ σ) (subscription leaf : Nat) (incoming : Option ν)
      (key : κ) : SameTraffic ((before.feed subscription leaf incoming).1.subject key)
        (before.subject key) := by
    rw [feed_subject]
    exact ⟨rfl, rfl, rfl⟩
  cases transition with
  | aside goes subjects =>
    refine flowing.calm (fun key => ?_) ⟨rfl, rfl⟩ (loads_scripts goes)
    rw [subject_congr subjects]
    exact ⟨rfl, rfl, rfl⟩
  | queued busy => exact flowing.queued busy _
  | @begun key value go idle =>
    refine flowing.sending (flowing.not_mem_carried idle) (fun _ h => nomatch h) rfl ?_
      (fun other elsewhere => by simp [asked?, Ne.symm elsewhere]) _ _ _
    have before := flowing.queue key
    rw [flowing.empty key idle, List.append_nil] at before
    simp [before, asked?]
  | subscribed => exact flowing.calm (fun _ => ⟨rfl, rfl, rfl⟩) ⟨rfl, rfl⟩ rfl
  | @detached registrations =>
    refine flowing.calm (fun key => ?_) (by simp [sent, sent?, asked, asked?, Function.comp_def]) rfl
    rw [subject_detach]
    exact ⟨rfl, rfl, rfl⟩
  | delivered => exact flowing.calm (same_feed _ _ _ _) (by simp) (by simp)
  | @resumed key last value audience go queue head =>
    refine flowing.sending (List.nodup_cons.mp flowing.single).1
      (fun _ h => List.mem_singleton.mp h) rfl ?_ (fun _ _ => rfl) _ _ _
    rw [← head, flowing.queue key]
    simp [asked?]
  | finished none_left => exact flowing.finished none_left _
  | attached =>
    exact flowing.calm (network.sameTraffic_attach _ _ _) ⟨rfl, rfl⟩ rfl
  | replayed =>
    refine flowing.calm (fun key => ?_) ?_ (by simp)
    · rw [feed_subject]
      exact network.sameTraffic_attach _ _ _ key
    · simp [sent_cons, sent?, asked_cons, asked?]
  | supplied => exact flowing.calm (same_feed _ _ _ _) (by simp) (by simp)
  | opened => exact flowing.calm (fun _ => ⟨rfl, rfl, rfl⟩) ⟨rfl, rfl⟩ rfl

end Flowing

end Network

end Switchboard
