import Switchboard.Proofs.Network.Account

/-!
# Accounts are even

The invariant behind ordered delivery. In every network that a run reaches,
the listeners of a subject are the leaves with an open account there, and each
leaf has taken in what it is due, up to the value of a fan-out that still has
it on its list. A step opens, closes or changes accounts only together with
the events that say so.
-/
namespace Switchboard

variable {κ ν ρ σ : Type}

open Event

namespace Network

/-- A leaf that no step has come to yet. -/
def Untouched (network : Network κ ν ρ σ) (stack : List (Frame κ ν ρ σ))
    (subscription leaf : Nat) : Prop :=
  network.subscriptions.length ≤ subscription ∨
    ∃ reached leaves go, .opening subscription reached leaves go ∈ stack ∧ reached ≤ leaf

/-- Leaves that were not reached are not reached by frames other than openings. -/
theorem Untouched.of_next {network next : Network κ ν ρ σ} {frame : Frame κ ν ρ σ}
    (frames : List (Frame κ ν ρ σ)) {rest : List (Frame κ ν ρ σ)} {s l : Nat}
    (h : next.Untouched (frames ++ rest) s l)
    (length : network.subscriptions.length ≤ next.subscriptions.length)
    (others : ∀ f ∈ frames, f.opens? = none) : network.Untouched (frame :: rest) s l := by
  rcases h with beyond | ⟨reached, leaves, go, member, le⟩
  · exact .inl (by omega)
  · rcases List.mem_append.mp member with member | member
    · exact nomatch others _ member
    · exact .inr ⟨reached, leaves, go, List.mem_cons_of_mem _ member, le⟩

/-- Leaves that were not reached are still not reached after something else on top is done. -/
theorem Untouched.next {network next : Network κ ν ρ σ} {frame : Frame κ ν ρ σ}
    {frames rest : List (Frame κ ν ρ σ)} {s l : Nat}
    (h : network.Untouched (frame :: rest) s l)
    (length : next.subscriptions.length = network.subscriptions.length)
    (other : frame.opens? = none) : next.Untouched (frames ++ rest) s l := by
  rcases h with beyond | ⟨reached, leaves, go, member, le⟩
  · exact .inl (by omega)
  · rcases List.mem_cons.mp member with rfl | member
    · exact nomatch other
    · exact .inr ⟨reached, leaves, go, List.mem_append_right _ member, le⟩

/-- Leaves that a new subscription has not reached were not there before. -/
theorem Untouched.of_subscribed {network : Network κ ν ρ σ} {added : Subscription κ ν ρ σ}
    {frame : Frame κ ν ρ σ} {rest : List (Frame κ ν ρ σ)} {reached : Nat} {leaves : List (Leaf κ)}
    {go : Script κ ν ρ σ} {s l : Nat}
    (h : Untouched { network with subscriptions := network.subscriptions ++ [added] }
      (.opening network.subscriptions.length reached leaves go :: rest) s l) :
    network.Untouched (frame :: rest) s l := by
  rcases h with beyond | ⟨reached', leaves', go', member, le⟩
  · exact .inl (by simp at beyond; omega)
  · rcases List.mem_cons.mp member with same | member
    · injection same with here
      exact .inl (by omega)
    · exact .inr ⟨reached', leaves', go', List.mem_cons_of_mem _ member, le⟩

/-- No subscription loses its stream or its listener. -/
def Keeps (network next : Network κ ν ρ σ) : Prop :=
  ∀ (n : Nat) (s : Subscription κ ν ρ σ), network.subscriptions[n]? = some s →
    ∃ state, next.subscriptions[n]? = some ⟨s.stream, state, s.listener⟩

namespace Keeps

variable {network next last : Network κ ν ρ σ}

theorem of_eq (same : next.subscriptions = network.subscriptions) : network.Keeps next :=
  fun _ s h => ⟨s.state, by rw [same, h]⟩

theorem trans (first : network.Keeps next) (second : next.Keeps last) : network.Keeps last := by
  intro n s h
  obtain ⟨state, h⟩ := first n s h
  obtain ⟨state', h⟩ := second n _ h
  exact ⟨state', h⟩

theorem feed (network : Network κ ν ρ σ) (subscription leaf : Nat) (incoming : Option ν) :
    network.Keeps (network.feed subscription leaf incoming).1 :=
  network.feed_stream subscription leaf incoming

theorem leafAt (keeps : network.Keeps next) {n l : Nat} {leaf : Leaf κ}
    (h : network.leafAt n l = some leaf) : next.leafAt n l = some leaf := by
  unfold Network.leafAt at h ⊢
  obtain ⟨s, found, h⟩ := Option.bind_eq_some_iff.mp h
  obtain ⟨state, found⟩ := keeps n s found
  simpa [found] using h

theorem fits (keeps : network.Keeps next) {frame : Frame κ ν ρ σ} (h : frame.Fits network) :
    frame.Fits next := by
  cases frame with
  | script => trivial
  | fanOut => exact ⟨h.1, fun s l listed => keeps.leafAt (h.2 s l listed)⟩
  | opening subscription leaf leaves go =>
    obtain ⟨s, found, dropped⟩ := h
    obtain ⟨state, found⟩ := keeps subscription s found
    exact ⟨_, found, dropped⟩

/-- An opening frame fits one leaf further on, too. -/
theorem fits_opening (keeps : network.Keeps next) {subscription leaf : Nat} {first : Leaf κ}
    {leaves : List (Leaf κ)} {go : Script κ ν ρ σ}
    (h : (Frame.opening (ν := ν) subscription leaf (first :: leaves) go).Fits network) :
    (Frame.opening (ν := ν) subscription (leaf + 1) leaves go).Fits next := by
  obtain ⟨s, found, dropped⟩ := h
  obtain ⟨state, found⟩ := keeps subscription s found
  have further := congrArg List.tail dropped
  exact ⟨_, found, by simpa using further⟩

/-- What no step takes away was there before, if nobody has subscribed. -/
theorem back (keeps : network.Keeps next)
    (length : next.subscriptions.length = network.subscriptions.length) {n : Nat}
    {s : Subscription κ ν ρ σ} (there : next.subscriptions[n]? = some s) :
    ∃ old state, network.subscriptions[n]? = some old ∧ s = ⟨old.stream, state, old.listener⟩ := by
  have small : n < network.subscriptions.length := by
    rw [← length]
    exact (List.getElem?_eq_some_iff.mp there).1
  obtain ⟨state, there'⟩ := keeps n _ (List.getElem?_eq_getElem small)
  exact ⟨_, state, List.getElem?_eq_getElem small, Option.some.inj (there.symm.trans there')⟩

theorem length_le (keeps : network.Keeps next) :
    network.subscriptions.length ≤ next.subscriptions.length := by
  by_cases small : next.subscriptions.length < network.subscriptions.length
  · obtain ⟨_, there⟩ := keeps _ _ (List.getElem?_eq_getElem small)
    obtain ⟨impossible, _⟩ := List.getElem?_eq_some_iff.mp there
    omega
  · omega

end Keeps

/-- Nothing is on its way to a leaf from a subject that sends out nothing. -/
theorem pending_eq_nil {network : Network κ ν ρ σ} {stack : List (Frame κ ν ρ σ)}
    (fits : ∀ frame ∈ stack, frame.Fits network) {s l : Nat} {key : κ}
    (here : network.leafAt s l = some (.subject key)) (free : key ∉ carried stack) :
    pending s l stack = [] := by
  refine List.flatMap_eq_nil_iff.mpr fun frame member => ?_
  cases frame with
  | script => rfl
  | opening => rfl
  | fanOut place value waiting audience go =>
    refine if_neg fun waits => free ?_
    obtain rfl : place = key := by simpa [here] using ((fits _ member).2 s l waits).symm
    exact mem_carried member

variable [DecidableEq κ]

/-- A listener that comes later, if both are leaves of one subscription, is a later leaf. -/
def InOrder (listener later : Nat × Nat) : Prop := listener.1 = later.1 → listener.2 < later.2

/-- The accounts of all leaves agree with the network that the events have led to. -/
structure Accounted (events : List (Event κ ν)) (network : Network κ ν ρ σ)
    (stack : List (Frame κ ν ρ σ)) : Prop where
  fits : ∀ frame ∈ stack, frame.Fits network
  once : (openings stack).Nodup
  ordered : ∀ key, (network.subject key).listeners.Pairwise InOrder
  listening : ∀ key s l,
    (s, l) ∈ (network.subject key).listeners ↔ (account s l events).line = some key
  place : ∀ key s l, (account s l events).line = some key →
    network.leafAt s l = some (.subject key)
  even : ∀ s l, received s l events ++ pending s l stack = (account s l events).due
  untouched : ∀ s l, network.Untouched stack s l → account s l events = ⟨none, []⟩

@[simp] theorem detach_subscriptions (network : Network κ ν ρ σ)
    (registrations : List (Registration κ)) :
    (network.detach registrations).subscriptions = network.subscriptions := by
  induction registrations generalizing network with
  | nil => rfl
  | cons registration rest ih => exact ih (network.detachOne registration)

/-- No step takes the stream of a subscription or its listener away. -/
theorem Transition.keeps {network next : Network κ ν ρ σ} {frame : Frame κ ν ρ σ}
    {frames : List (Frame κ ν ρ σ)} {es : List (Event κ ν)}
    (transition : Transition network frame es next frames) : network.Keeps next := by
  cases transition with
  | aside goes subjects subscriptions => exact .of_eq subscriptions
  | queued => exact .of_eq rfl
  | begun => exact .of_eq rfl
  | subscribed =>
    intro n s h
    exact ⟨s.state, List.getElem?_append_left (List.getElem?_eq_some_iff.mp h).1 ▸ h⟩
  | detached => exact .of_eq (network.detach_subscriptions _)
  | delivered => exact .feed _ _ _ _
  | resumed => exact .of_eq rfl
  | finished => exact .of_eq rfl
  | attached => exact .of_eq rfl
  | @replayed key subscription leaf =>
    have attached : network.Keeps (network.attach key subscription leaf) := .of_eq rfl
    exact attached.trans (.feed _ _ _ _)
  | supplied => exact .feed _ _ _ _
  | opened => exact .of_eq rfl

namespace Accounted

variable {events es : List (Event κ ν)} {network next : Network κ ν ρ σ}
variable {frame : Frame κ ν ρ σ} {frames rest : List (Frame κ ν ρ σ)}

theorem start (memory : σ) (program : Script κ ν ρ σ) :
    Accounted [] (Network.start memory) [.script program] where
  fits frame h := by
    obtain rfl : frame = .script program := by simpa using h
    trivial
  once := List.nodup_nil
  ordered _ := .nil
  listening _ _ _ := by simp [Network.start, subject, Subject.fresh, account]
  place _ _ _ h := nomatch h
  even _ _ := by simp [received, account, Frame.pending, pending]
  untouched _ _ _ := rfl

theorem nodup {stack : List (Frame κ ν ρ σ)} (accounted : Accounted events network stack)
    (key : κ) : (network.subject key).listeners.Nodup := by
  refine (accounted.ordered key).imp ?_
  rintro listener later in_order rfl
  exact absurd (in_order rfl) (Nat.lt_irrefl _)

/-- Whatever is being opened is there. -/
theorem lt_of_opens {stack : List (Frame κ ν ρ σ)} {n : Nat}
    (accounted : Accounted events network stack) (opens : n ∈ openings stack) :
    n < network.subscriptions.length := by
  obtain ⟨f, member, opens⟩ := List.mem_filterMap.mp opens
  cases f with
  | script => exact nomatch opens
  | fanOut => exact nomatch opens
  | opening subscription leaf leaves go =>
    obtain rfl := Option.some.inj opens
    obtain ⟨_, found, _⟩ := accounted.fits _ member
    exact (List.getElem?_eq_some_iff.mp found).1

/-- What stays true of frames when others take the place of the one on top. -/
theorem fits_next (frames : List (Frame κ ν ρ σ))
    (accounted : Accounted events network (frame :: rest))
    (keeps : network.Keeps next) (fresh : ∀ f ∈ frames, f.Fits next) :
    ∀ f ∈ frames ++ rest, f.Fits next := by
  intro f h
  rcases List.mem_append.mp h with h | h
  · exact fresh f h
  · exact keeps.fits (accounted.fits f (List.mem_cons_of_mem _ h))

/-- Steps that change no account and pay out what they take off the stack. -/
theorem calm (frames : List (Frame κ ν ρ σ))
    (accounted : Accounted events network (frame :: rest))
    (keeps : network.Keeps next) (fresh : ∀ f ∈ frames, f.Fits next)
    (once : (openings (frames ++ rest)).Nodup)
    (listeners : ∀ key, (next.subject key).listeners = (network.subject key).listeners)
    (silent : ∀ s l before, es.foldl (enter s l) before = before)
    (paid : ∀ s l, received s l es ++ pending s l frames = frame.pending s l)
    (untouched : ∀ s l, next.Untouched (frames ++ rest) s l →
      network.Untouched (frame :: rest) s l) :
    Accounted (events ++ es) next (frames ++ rest) := by
  have same (s l : Nat) : account s l (events ++ es) = account s l events := by
    rw [account_append, silent]
  refine ⟨accounted.fits_next _ keeps fresh, once, ?_, ?_, ?_, ?_, ?_⟩
  · intro key
    rw [listeners]
    exact accounted.ordered key
  · intro key s l
    rw [listeners, same]
    exact accounted.listening key s l
  · intro key s l h
    rw [same] at h
    exact keeps.leafAt (accounted.place key s l h)
  · intro s l
    rw [same, ← accounted.even s l, pending_cons, ← paid s l]
    simp
  · intro s l h
    rw [same]
    exact accounted.untouched s l (untouched s l h)

/-- A value that sets out is owed to all listeners and on its way to all of them. -/
theorem sent {key : κ} {value : ν} (accounted : Accounted events network (frame :: rest))
    (keeps : network.Keeps next) (carries : key ∉ carried rest)
    (off : frame.opens? = none) (nothing : ∀ s l, frame.pending s l = [])
    (listeners : ∀ k, (next.subject k).listeners = (network.subject k).listeners)
    (silent : ∀ s l before, es.foldl (enter s l) before = enter s l before (.setOut key value))
    (none_received : ∀ s l, received s l es = []) (audience : Nat)
    (go : Nat → Script κ ν ρ σ) :
    Accounted (events ++ es) next
      (.fanOut key value (network.subject key).listeners audience go :: rest) := by
  have account_line (s l : Nat) :
      (account s l (events ++ es)).line = (account s l events).line := by
    rw [account_append, silent]
    simp only [enter]
    split <;> rfl
  have nothing_below (s l : Nat) (listed : (s, l) ∈ (network.subject key).listeners) :
      pending s l rest = [] :=
    pending_eq_nil (fun f member => accounted.fits f (List.mem_cons_of_mem _ member))
      (accounted.place key s l ((accounted.listening key s l).mp listed)) carries
  refine ⟨?_, ?_, ?_, ?_, ?_, ?_, ?_⟩
  · refine accounted.fits_next [_] keeps fun f h => ?_
    obtain rfl : f = .fanOut key value (network.subject key).listeners audience go := by
      simpa using h
    exact ⟨accounted.nodup key, fun s l listed =>
      keeps.leafAt (accounted.place key s l ((accounted.listening key s l).mp listed))⟩
  · have once := accounted.once
    rw [openings, List.filterMap_cons, off] at once
    exact once
  · intro k
    rw [listeners]
    exact accounted.ordered k
  · intro k s l
    rw [listeners, account_line]
    exact accounted.listening k s l
  · intro k s l h
    rw [account_line] at h
    exact keeps.leafAt (accounted.place k s l h)
  · intro s l
    have before := accounted.even s l
    rw [pending_cons, nothing, List.nil_append] at before
    rw [received_append, none_received, List.append_nil, pending_cons, account_append, silent]
    simp only [Frame.pending, enter]
    by_cases listed : (s, l) ∈ (network.subject key).listeners
    · rw [nothing_below s l listed, List.append_nil] at before
      rw [if_pos listed, if_pos ((accounted.listening key s l).mp listed),
        nothing_below s l listed, before]
      simp
    · rw [if_neg listed, if_neg (mt (accounted.listening key s l).mpr listed)]
      exact before
  · intro s l h
    have earlier := accounted.untouched s l
      (Untouched.of_next [_] h keeps.length_le (by simp [Frame.opens?]))
    rw [account_append, silent, earlier]
    rfl

/-- The leaves at hand when a subscription is opened. -/
theorem leafAt_opening {subscription leaf : Nat} {leaves : List (Leaf κ)} {go : Script κ ν ρ σ}
    (accounted : Accounted events network (.opening subscription leaf leaves go :: rest))
    (more : Nat) : network.leafAt subscription (leaf + more) = leaves[more]? := by
  obtain ⟨sub, found, dropped⟩ := accounted.fits _ List.mem_cons_self
  simp [leafAt, found, ← dropped]

/-- What an opening frame knows of its leaf before the leaf is attached. -/
theorem opening_untouched {subscription leaf : Nat} {leaves : List (Leaf κ)}
    {go : Script κ ν ρ σ}
    (accounted : Accounted events network (.opening subscription leaf leaves go :: rest)) :
    account subscription leaf events = ⟨none, []⟩ :=
  accounted.untouched subscription leaf
    (.inr ⟨leaf, leaves, go, List.mem_cons_self, Nat.le_refl leaf⟩)

/-- After an opening frame has gone one leaf further, that leaf is not untouched any more. -/
theorem untouched_of_opening {subscription leaf : Nat} {leaf₀ : Leaf κ} {leaves : List (Leaf κ)}
    {go : Script κ ν ρ σ} {woken : List (Script κ ν ρ σ)}
    (accounted : Accounted events network (.opening subscription leaf (leaf₀ :: leaves) go :: rest))
    (keeps : network.Keeps next) {s l : Nat}
    (h : next.Untouched
      (woken.map .script ++ [.opening subscription (leaf + 1) leaves go] ++ rest) s l) :
    network.Untouched (.opening subscription leaf (leaf₀ :: leaves) go :: rest) s l ∧
      ¬(subscription = s ∧ leaf = l) := by
  obtain ⟨sub, found, _⟩ := accounted.fits _ List.mem_cons_self
  obtain ⟨small, _⟩ := List.getElem?_eq_some_iff.mp found
  have length := keeps.length_le
  obtain ⟨new, _⟩ := List.nodup_cons.mp accounted.once
  rcases h with beyond | ⟨reached, left, go', member, le⟩
  · refine ⟨.inl (by omega), ?_⟩
    rintro ⟨rfl, _⟩
    omega
  · rw [List.append_assoc, List.mem_append, List.mem_append, List.mem_singleton] at member
    rcases member with member | same | member
    · simp at member
    · injection same with here there
      subst here
      exact ⟨.inr ⟨leaf, _, _, List.mem_cons_self, by omega⟩, by omega⟩
    · refine ⟨.inr ⟨reached, left, go', List.mem_cons_of_mem _ member, le⟩, ?_⟩
      rintro ⟨rfl, _⟩
      exact new (List.mem_filterMap.mpr ⟨_, member, rfl⟩)

/-- A leaf that is attached is owed the value that its subject has, and has it at once. -/
theorem attached {key : κ} {subscription leaf : Nat} {leaves : List (Leaf κ)}
    {go : Script κ ν ρ σ} (woken : List (Script κ ν ρ σ)) {current : Option ν}
    (accounted : Accounted events network
      (.opening subscription leaf (.subject key :: leaves) go :: rest))
    (keeps : network.Keeps next)
    (subjects : next.subject = (network.attach key subscription leaf).subject)
    (silent : ∀ s l before, es.foldl (enter s l) before = before)
    (fed : ∀ s l, received s l es =
      if subscription = s ∧ leaf = l then current.toList else []) :
    Accounted (events ++ .attached ⟨key, subscription, leaf⟩ current :: es) next
      (woken.map .script ++ [.opening subscription (leaf + 1) leaves go] ++ rest) := by
  have closed := accounted.opening_untouched
  have opening := accounted.fits _ List.mem_cons_self
  have here : network.leafAt subscription leaf = some (.subject key) := accounted.leafAt_opening 0
  have account_eq (s l : Nat) :
      account s l (events ++ .attached ⟨key, subscription, leaf⟩ current :: es) =
        if subscription = s ∧ leaf = l then ⟨some key, current.toList⟩
        else account s l events := by
    rw [account_append, List.foldl_cons, silent]
    rfl
  -- Of the leaves of this subscription, only earlier ones have been attached.
  have passed (k : κ) (l : Nat) (listed : (subscription, l) ∈ (network.subject k).listeners) :
      l < leaf := by
    by_cases early : l < leaf
    · exact early
    · have line := (accounted.listening k subscription l).mp listed
      have untouched : network.Untouched
          (.opening subscription leaf (.subject key :: leaves) go :: rest) subscription l :=
        .inr ⟨leaf, _, _, List.mem_cons_self, Nat.not_lt.mp early⟩
      rw [accounted.untouched subscription l untouched] at line
      exact nomatch line
  have absent (k : κ) : (subscription, leaf) ∉ (network.subject k).listeners :=
    fun listed => absurd (passed k leaf listed) (Nat.lt_irrefl leaf)
  have listeners (k : κ) : (next.subject k).listeners =
      if k = key then (network.subject k).listeners ++ [(subscription, leaf)]
      else (network.subject k).listeners := by
    rw [subjects, listeners_attach]
  refine ⟨?_, ?_, ?_, ?_, ?_, ?_, ?_⟩
  · exact accounted.fits_next _ keeps
      (forall_woken (fun _ => trivial) woken (keeps.fits_opening opening))
  · have once := accounted.once
    simpa using once
  · intro k
    rw [listeners]
    split
    · refine List.pairwise_append.mpr ⟨accounted.ordered k, List.pairwise_singleton .., ?_⟩
      rintro ⟨s, l⟩ listed other same
      obtain rfl := List.mem_singleton.mp same
      intro (there : s = subscription)
      subst there
      exact passed k l listed
    · exact accounted.ordered k
  · intro k s l
    rw [listeners, account_eq]
    by_cases same : subscription = s ∧ leaf = l
    · obtain ⟨rfl, rfl⟩ := same
      by_cases that : k = key
      · simp [that]
      · simp [that, absent, Ne.symm that]
    · rw [if_neg same, ← accounted.listening k s l]
      split
      · simpa using fun first second => absurd ⟨first.symm, second.symm⟩ same
      · rfl
  · intro k s l line
    rw [account_eq] at line
    split at line
    · rename_i same
      obtain ⟨rfl, rfl⟩ := same
      obtain rfl : key = k := by simpa using line
      exact keeps.leafAt here
    · exact keeps.leafAt (accounted.place k s l line)
  · intro s l
    have before := accounted.even s l
    rw [pending_cons] at before
    simp only [Frame.pending, List.nil_append] at before
    rw [received_append, received_cons, fed, account_eq]
    simp only [received?, pending_append, pending_cons, pending_scripts, Frame.pending]
    by_cases same : subscription = s ∧ leaf = l
    · obtain ⟨rfl, rfl⟩ := same
      rw [closed] at before
      obtain ⟨nothing, nothing'⟩ := List.append_eq_nil_iff.mp before
      simp [nothing, nothing']
    · simpa [same] using before
  · intro s l h
    obtain ⟨earlier, other⟩ := accounted.untouched_of_opening keeps h
    rw [account_eq, if_neg other]
    exact accounted.untouched s l earlier

/-- Leaves that are detached are owed nothing more from then on. -/
theorem detached {registrations : List (Registration κ)} {go : Script κ ν ρ σ}
    (accounted : Accounted events network (.script (.detach registrations go) :: rest)) :
    Accounted (events ++ registrations.map .detached) (network.detach registrations)
      (.script go :: rest) := by
  have keeps : network.Keeps (network.detach registrations) :=
    .of_eq (network.detach_subscriptions _)
  have account_eq (s l : Nat) : account s l (events ++ registrations.map .detached) =
      ⟨(account s l events).line.filter fun key => decide (⟨key, s, l⟩ ∉ registrations),
        (account s l events).due⟩ := by
    rw [account_append, enter_detached]
  have received_eq (s l : Nat) :
      received s l (events ++ registrations.map .detached) = received s l events := by
    simp [received, received?, Function.comp_def]
  refine ⟨?_, accounted.once, ?_, ?_, ?_, ?_, ?_⟩
  · exact accounted.fits_next [_] keeps (by simp [Frame.Fits])
  · intro key
    rw [subject_detach]
    exact (accounted.ordered key).filter _
  · intro key s l
    rw [subject_detach, account_eq, Option.filter_eq_some_iff, ← accounted.listening]
    simp [Subject.without]
  · intro key s l line
    rw [account_eq, Option.filter_eq_some_iff] at line
    exact keeps.leafAt (accounted.place key s l line.1)
  · intro s l
    rw [received_eq, account_eq]
    exact accounted.even s l
  · intro s l h
    have earlier := accounted.untouched s l
      (Untouched.of_next [_] h keeps.length_le (by simp [Frame.opens?]))
    rw [account_eq, earlier]
    rfl

/-- One step keeps the accounts even. -/
theorem step (accounted : Accounted events network (frame :: rest))
    (flowing : Flowing events network (frame :: rest))
    (transition : Transition network frame es next frames) :
    Accounted (events ++ es) next (frames ++ rest) := by
  have keeps := transition.keeps
  have once := accounted.once
  cases transition with
  | aside goes subjects subscriptions =>
    refine accounted.calm _ keeps (List.forall_mem_map.mpr fun _ _ => trivial) (by simpa using once)
      (fun key => by rw [subject_congr subjects]) (fun _ _ _ => rfl)
      (fun _ _ => by simp [received, Frame.pending]) fun s l h => ?_
    exact h.of_next _ keeps.length_le (List.forall_mem_map.mpr fun _ _ => rfl)
  | queued =>
    exact accounted.calm [_] keeps (by simp [Frame.Fits]) once
      (fun _ => network.listeners_setSubject rfl) (fun _ _ _ => rfl) (fun _ _ => rfl) fun s l h =>
        h.of_next [_] keeps.length_le (by simp [Frame.opens?])
  | @begun key value go idle =>
    exact accounted.sent keeps (flowing.not_mem_carried idle) rfl (fun _ _ => rfl)
      (network.listeners_setOut key value []) (fun _ _ _ => rfl) (fun _ _ => rfl) _ _
  | @subscribed α stream listener go =>
    have new : network.subscriptions.length ∉ openings rest :=
      fun opens => absurd (accounted.lt_of_opens opens) (Nat.lt_irrefl _)
    exact accounted.calm [_] keeps (by simp [Frame.Fits]) (List.nodup_cons.mpr ⟨new, once⟩)
      (fun _ => rfl) (fun _ _ _ => rfl) (fun _ _ => rfl) fun _ _ => .of_subscribed
  | detached => exact accounted.detached
  | @delivered key value subscription leaf waiting audience go woken wakes =>
    obtain ⟨distinct, placed⟩ := accounted.fits _ List.mem_cons_self
    obtain ⟨new, distinct⟩ := List.nodup_cons.mp distinct
    have waiting_fits : (Frame.fanOut key value waiting audience go).Fits
        (network.feed subscription leaf (some value)).1 :=
      ⟨distinct, fun s l listed => keeps.leafAt (placed s l (List.mem_cons_of_mem _ listed))⟩
    refine accounted.calm _ keeps (forall_woken (fun _ => trivial) woken waiting_fits)
      (by simpa using once) (by simp) (enter_feedEvents network subscription leaf (some value))
      (fun s l => ?_) fun s l h => ?_
    · rw [received_feedEvents]
      by_cases here : subscription = s ∧ leaf = l
      · obtain ⟨rfl, rfl⟩ := here
        simp [Frame.pending, new]
      · have apart : ¬(s = subscription ∧ l = leaf) := fun same => here ⟨same.1.symm, same.2.symm⟩
        simp [Frame.pending, here, apart]
    · exact h.of_next _ keeps.length_le (forall_woken (fun _ => rfl) woken rfl)
  | @resumed key last value audience go queue head =>
    exact accounted.sent keeps (List.nodup_cons.mp flowing.single).1 rfl
      (fun _ _ => by simp [Frame.pending]) (network.listeners_setOut key value queue)
      (fun _ _ _ => rfl) (fun _ _ => rfl) _ _
  | @finished key last audience go empty =>
    exact accounted.calm [_] keeps (by simp [Frame.Fits]) once
      (fun _ => network.listeners_setSubject rfl) (fun _ _ _ => rfl) (fun _ _ => by simp [received, Frame.pending, pending]) fun s l h =>
        h.of_next [_] keeps.length_le (by simp [Frame.opens?])
  | attached silent =>
    exact accounted.attached [] keeps rfl (fun _ _ _ => rfl) (fun _ _ => by simp [received])
  | @replayed key subscription leaf leaves go value woken current wakes =>
    refine accounted.attached _ keeps (by simp) ?_ ?_
    · exact enter_feedEvents (network.attach key subscription leaf) subscription leaf (some value)
    · exact (network.attach key subscription leaf).received_feedEvents subscription leaf _
  | @supplied subscription leaf leaves go woken wakes =>
    have further := keeps.fits_opening (accounted.fits _ List.mem_cons_self)
    refine accounted.calm _ keeps (forall_woken (fun _ => trivial) woken further)
      (by simpa using once) (by simp) (enter_feedEvents network subscription leaf none)
      (fun s l => ?_) fun s l h => (accounted.untouched_of_opening keeps h).1
    rw [received_feedEvents]
    simp [Frame.pending]
  | @opened subscription leaf go =>
    refine accounted.calm [_] keeps (by simp [Frame.Fits]) ?_ (fun _ => rfl)
      (fun _ _ _ => rfl) (fun _ _ => rfl) fun s l h =>
        h.of_next [_] keeps.length_le (by simp [Frame.opens?])
    exact (List.nodup_cons.mp once).2

end Accounted

end Network

end Switchboard
