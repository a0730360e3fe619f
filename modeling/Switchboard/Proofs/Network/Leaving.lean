import Switchboard.Proofs.Network.Attending
import Switchboard.Proofs.Network.Foreseen
import Switchboard.Proofs.Stream.Handles

/-!
# What is taken back

A subscription that has been opened is attached once with each of its leaves at
subjects, and its handle keeps just these registrations. Whatever else comes
and goes in the meantime, they are the only ones that go when the handle is
closed, and all others stay in their order. Leaves that are gone do not come
back, so nothing is left to be taken back a second time. The same holds for
handles that result from mergers.
-/
namespace Switchboard

variable {κ ν ρ σ : Type} [DecidableEq κ]

open Event

namespace Network

variable {events es : List (Event κ ν)} {network next : Network κ ν ρ σ}
variable {stack stack' : List (Frame κ ν ρ σ)}

/-- A registration of a leaf whose subscription has been opened. -/
def Standing (network : Network κ ν ρ σ) (stack : List (Frame κ ν ρ σ))
    (registration : Registration κ) : Prop :=
  network.leafAt registration.subscription registration.leaf =
      some (.subject registration.subject) ∧
    registration.subscription ∉ openings stack

omit [DecidableEq κ] in
theorem Standing.reached {registration : Registration κ}
    (standing : Standing network stack registration) :
    ¬network.Untouched stack registration.subscription registration.leaf := by
  rintro (beyond | ⟨_, _, _, member, _⟩)
  · exact absurd (small_of_leafAt standing.1) (Nat.not_lt.mpr beyond)
  · exact standing.2 (List.mem_filterMap.mpr ⟨_, member, rfl⟩)

/-- Closing a handle takes off every subject the listeners that it keeps, and nothing else. -/
def TakesBack (handle : Handle κ) (network : Network κ ν ρ σ) : Prop :=
  ∀ key, (∀ listener ∈ handle.listenersAt key, listener ∈ (network.subject key).listeners) ∧
    (network.detach handle.released).subject key =
      { network.subject key with
        listeners := (network.subject key).listeners.removeAll (handle.listenersAt key) } ∧
    network.listenerCount key =
      (network.detach handle.released).listenerCount key + (handle.listenersAt key).length

theorem removeAll_eq (listeners taken : List (Nat × Nat)) :
    listeners.removeAll taken = listeners.filter (· ∉ taken) := by
  simp [List.removeAll]

theorem nodup_listenersAt {handle : Handle κ} (distinct : handle.registrations.Nodup) (key : κ) :
    (handle.listenersAt key).Nodup := by
  refine (distinct.filter _).map_on ?_
  rintro ⟨place, n, l⟩ listed ⟨place', n', l'⟩ listed' same
  obtain rfl : place = key := of_decide_eq_true (List.mem_filter.mp listed).2
  obtain rfl : place' = place := of_decide_eq_true (List.mem_filter.mp listed').2
  obtain ⟨rfl, rfl⟩ := Prod.mk.inj same
  rfl

/-- A handle takes back what it keeps, if all of it is still there. -/
theorem takesBack_of_listening {handle : Handle κ} (is_open : handle.released = handle.registrations)
    (distinct : handle.registrations.Nodup)
    (distinct' : ∀ key, (network.subject key).listeners.Nodup)
    (listening : ∀ registration ∈ handle.registrations,
      (registration.subscription, registration.leaf) ∈
        (network.subject registration.subject).listeners) : TakesBack handle network := by
  intro key
  have there (listener : Nat × Nat) (kept : listener ∈ handle.listenersAt key) :
      listener ∈ (network.subject key).listeners :=
    listening _ (Handle.mem_listenersAt.mp kept)
  have detached : (network.detach handle.released).subject key =
      { network.subject key with
        listeners := (network.subject key).listeners.removeAll (handle.listenersAt key) } := by
    rw [subject_detach, is_open, Subject.without, removeAll_eq]
    simp only [Handle.mem_listenersAt]
  refine ⟨there, detached, ?_⟩
  have taken : ((network.subject key).listeners.filter (· ∈ handle.listenersAt key)).Perm
      (handle.listenersAt key) := by
    refine (List.perm_ext_iff_of_nodup ((distinct' key).filter _)
      (nodup_listenersAt distinct key)).mpr fun listener => ?_
    rw [List.mem_filter, decide_eq_true_iff]
    exact and_iff_right_of_imp (there listener)
  have parts := List.length_eq_length_filter_add (l := (network.subject key).listeners)
    (· ∉ handle.listenersAt key)
  simp only [decide_not, Bool.not_not] at parts
  rw [listenerCount, listenerCount, detached, removeAll_eq, parts, taken.length_eq]
  simp only [decide_not]

/-- Leaves that are gone do not come back. -/
theorem Sound.stays_away (sound : Sound (events ++ es) network stack) {n l : Nat}
    (attached : currents n l events ≠ []) (gone : (account n l events).line = none) (key : κ) :
    (n, l) ∉ (network.subject key).listeners := by
  intro listed
  have line := (sound.accounted.listening key n l).mp listed
  have here := sound.accounted.place key n l line
  have never := sound.never_again here attached
  have closed : account n l events = ⟨none, (account n l events).due⟩ := by
    rw [← gone]
  rw [account_append, closed, account_closed never] at line
  exact nomatch line

/-- What has been taken back once is nowhere to be taken back from. -/
theorem Sound.detach_again {registrations : List (Registration κ)} {next : Script κ ν ρ σ}
    {below above : List (Frame κ ν ρ σ)} {last : Network κ ν ρ σ}
    (sound : Sound events network (.script (.detach registrations next) :: below))
    (standing : ∀ registration ∈ registrations,
      Standing network (.script (.detach registrations next) :: below) registration)
    (run : Run (network.detach registrations) (.script next :: below) es last above) (key : κ) :
    (last.detach registrations).subject key = last.subject key := by
  have leaves : Transition network (.script (.detach registrations next))
      (registrations.map .detached) (network.detach registrations) [.script next] := .detached
  have sound' := (sound.step leaves).run run
  rw [subject_detach]
  have stay : (last.subject key).listeners.filter
      (fun listener => decide (⟨key, listener.1, listener.2⟩ ∉ registrations)) =
        (last.subject key).listeners := by
    refine List.filter_eq_self.mpr fun listener listed => decide_eq_true fun taken => ?_
    have stood := standing _ taken
    obtain ⟨current, once⟩ :=
      (sound.opened.attached listener.1 listener.2 key stood.1).resolve_left stood.reached
    refine sound'.stays_away ?_ ?_ key listed
    · rw [currents_append, once]
      exact List.cons_ne_nil _ _
    · rw [account_append, enter_detached]
      cases line : (account listener.1 listener.2 events).line with
      | none => rfl
      | some place =>
        have leaf := sound.accounted.place place _ _ line
        obtain rfl : key = place := by simpa [stood.1] using leaf
        simp [Option.filter, taken]
  rw [Subject.without, stay]

section Subscribed

variable {past later : List (Event κ ν)} {last : Network κ ν ρ σ} {rest : List (Frame κ ν ρ σ)}
variable {α : Type} {stream : Stream κ ν ρ α} {listener : α → Script κ ν ρ σ}
variable {go : Handle κ → Script κ ν ρ σ} {n : Nat}

theorem ordered_listenersAt (stream : Stream κ ν ρ α) (n : Nat) (key : κ) :
    ((stream.handle n).listenersAt key).Pairwise fun one later => one.2 < later.2 :=
  List.pairwise_map.mpr ((registrationsFrom_ordered n 0 stream.leaves).filter _)

-- A run that goes on after a subscription.
variable (number : network.subscriptions.length = n)
  (since : Run (network.enlisted stream listener)
    (.opening n 0 stream.leaves (go (stream.handle n)) :: rest) later last stack)

include number since

theorem leafAt_since (l : Nat) : last.leafAt n l = stream.leaves[l]? := by
  have there : (network.enlisted stream listener).subscriptions[n]? =
      some ⟨stream, stream.initial, listener⟩ := by
    rw [← number]
    exact List.getElem?_concat_length
  obtain ⟨state, there'⟩ := since.keeps n _ there
  rw [leafAt, there']
  rfl

/-- The registrations of a subscription that has been opened, which is where its handle is known. -/
theorem standing_since (returned : n ∉ openings stack) {registration : Registration κ}
    (listed : registration ∈ (stream.handle n).registrations) : Standing last stack registration := by
  obtain ⟨same, leaf⟩ := mem_handle.mp listed
  rw [Standing, same, leafAt_since number since]
  exact ⟨leaf, returned⟩

variable (sound : Sound past network (.script (.subscribe stream listener go) :: rest))

include sound

theorem Sound.subscribed : Sound (past ++ .subscribed n :: later) last stack := by
  have subscribes : Transition network (.script (.subscribe stream listener go))
      [.subscribed network.subscriptions.length] (network.enlisted stream listener)
      [.opening network.subscriptions.length 0 stream.leaves
        (go (stream.handle network.subscriptions.length))] := .subscribed
  rw [number] at subscribes
  have whole := (sound.step subscribes).run since
  rwa [List.append_assoc] at whole

-- It has been opened, and nothing of it has been taken back since.
variable (returned : n ∉ openings stack)
  (kept : ∀ registration, .detached registration ∈ later → registration.subscription ≠ n)

include returned kept

/-- The listeners of a subscription that has been opened and not been closed are its leaves. -/
theorem listeners_since (key : κ) (l : Nat) : (n, l) ∈ (last.subject key).listeners ↔
    (n, l) ∈ (stream.handle n).listenersAt key := by
  have whole := sound.subscribed number since
  rw [Handle.mem_listenersAt, mem_handle]
  constructor
  · intro listed
    have placed := whole.accounted.place key n l ((whole.accounted.listening key n l).mp listed)
    exact ⟨rfl, (leafAt_since number since l).symm.trans placed⟩
  · rintro ⟨_, leaf⟩
    have unattached : currents n l past = [] :=
      (sound.opened.unreached n l (.inl (Nat.le_of_eq number))).1
    have standing : Standing last stack ⟨key, n, l⟩ :=
      standing_since number since returned (mem_handle.mpr ⟨rfl, leaf⟩)
    refine whole.listens unattached standing.1 standing.reached fun member => ?_
    rcases List.mem_cons.mp member with other | member
    · exact nomatch other
    · exact kept _ member rfl

/-- They stand among all listeners in the order of the leaves. -/
theorem filter_listeners_since (key : κ) : (last.subject key).listeners.filter (·.1 = n) =
    (stream.handle n).listenersAt key := by
  let earlier (one later : Nat × Nat) : Prop := one.2 < later.2
  have : Std.Antisymm earlier := ⟨fun _ _ less more => absurd less (Nat.lt_asymm more)⟩
  have : Std.Irrefl earlier := ⟨fun _ => Nat.lt_irrefl _⟩
  have ordered : ((last.subject key).listeners.filter (·.1 = n)).Pairwise earlier := by
    refine List.Pairwise.imp_of_mem ?_
      (((sound.subscribed number since).accounted.ordered key).filter (·.1 = n))
    intro one later member member' order
    have here : one.1 = n := of_decide_eq_true (List.mem_filter.mp member).2
    have here' : later.1 = n := of_decide_eq_true (List.mem_filter.mp member').2
    exact order (here.trans here'.symm)
  refine ordered.eq_of_mem_iff (ordered_listenersAt stream n key) ?_
  rintro ⟨m, l⟩
  rw [List.mem_filter, decide_eq_true_iff]
  constructor
  · rintro ⟨listed, rfl⟩
    exact (listeners_since number since sound returned kept key l).mp listed
  · intro listed
    obtain ⟨rfl, _⟩ := mem_handle.mp (Handle.mem_listenersAt.mp listed)
    exact ⟨(listeners_since number since sound returned kept key l).mpr listed, rfl⟩

/-- The handle of a subscription that has not been closed takes back what subscribing has added. -/
theorem takesBack_since : TakesBack (stream.handle n) last := by
  refine takesBack_of_listening rfl ?_ (sound.subscribed number since).accounted.nodup ?_
  · refine (registrationsFrom_ordered n 0 stream.leaves).imp ?_
    rintro one later less rfl
    exact Nat.lt_irrefl _ less
  · rintro ⟨key, m, l⟩ keeps
    obtain ⟨rfl, _⟩ := mem_handle.mp keeps
    exact (listeners_since number since sound returned kept key l).mpr
      (Handle.mem_listenersAt.mpr keeps)

end Subscribed

/-- Handles that have come from subscriptions take back what they keep, however often merged. -/
theorem takesBack_after {memory : σ} {program : Script κ ν ρ σ}
    (run : Run (Network.start memory) [.script program] events network stack)
    {handlings : List (Handling κ)} (distinct : (Handling.received handlings).Nodup)
    (standing : ∀ registration ∈ Handling.received handlings,
      Standing network stack registration ∧
        (.detached registration ∈ events → registration ∈ (Cabinet.after handlings).takenBack))
    {number : Nat} {handle : Handle κ}
    (there : (Cabinet.after handlings).handle? number = some handle) :
    TakesBack handle network := by
  have sound := (Sound.start memory program).run run
  obtain ⟨tidy, all⟩ := Cabinet.after_conserves handlings
  obtain ⟨_, distinct', apart⟩ := Cabinet.nodup_after distinct
  refine takesBack_of_listening (tidy.released there) ?_ sound.accounted.nodup ?_
  · exact (List.nodup_flatMap.mp distinct').1 _
      (List.mem_of_getElem? (Cabinet.handle?_eq_some_iff.mp there))
  · intro registration keeps
    have kept := Cabinet.mem_kept there keeps
    obtain ⟨stands, detached⟩ := standing registration
      (all.mem_iff.mp (List.mem_append_right _ kept))
    exact sound.listens rfl stands.1 stands.reached fun member =>
      apart registration kept (detached member)

/--
Handles take back what subscriptions have added, and take it back once. Once a stream has been
subscribed to, and whatever happens until the handle is closed, the listeners with the number of
the subscription are its leaves and none that was there before; closing the handle takes them off
all subjects and leaves the others, and closing it again does nothing, nor would it do anything to
take the same registrations back again. Whatever is done with any handles, what they keep is taken
back once at most, and it is taken back when the handle that keeps it is closed; and a handle that
results from mergers takes back the listeners of all subscriptions that it comes from.
-/
theorem handles_take_back {memory : σ} {program : Script κ ν ρ σ} {past later : List (Event κ ν)}
    {network last : Network κ ν ρ σ} {rest stack : List (Frame κ ν ρ σ)} {α : Type}
    {stream : Stream κ ν ρ α} {listener : α → Script κ ν ρ σ} {go : Handle κ → Script κ ν ρ σ}
    {n : Nat} (number : network.subscriptions.length = n)
    (reached : Run (Network.start memory) [.script program] past network
      (.script (.subscribe stream listener go) :: rest))
    (since : Run (network.enlisted stream listener)
      (.opening n 0 stream.leaves (go (stream.handle n)) :: rest) later last stack)
    (returned : n ∉ openings stack)
    (kept : ∀ registration, .detached registration ∈ later → registration.subscription ≠ n) :
    (∀ key, (∀ other ∈ (network.subject key).listeners, other.1 ≠ n) ∧
      (last.subject key).listeners.filter (·.1 = n) = (stream.handle n).listenersAt key ∧
      ((stream.handle n).listenersAt key).length = stream.leaves.count (.subject key)) ∧
    TakesBack (stream.handle n) last ∧
    (∀ next below again final above,
      stack = .script (.detach (stream.handle n).released next) :: below →
      Run (last.detach (stream.handle n).released) (.script next :: below) again final above →
      final.detach (stream.handle n).close.released = final ∧
        ∀ key, (final.detach (stream.handle n).registrations).subject key = final.subject key) ∧
    ∀ handlings : List (Handling κ), (Handling.received handlings).Nodup →
      (Cabinet.after handlings).takenBack.Nodup ∧
      (∀ before number handle after, handlings = before ++ .unsubscribe number :: after →
        (Cabinet.after before).handle? number = some handle →
        ∀ registration ∈ handle.registrations, registration ∉ (Cabinet.after before).takenBack ∧
          (Cabinet.after (before ++ [.unsubscribe number])).takenBack.count registration = 1 ∧
          (Cabinet.after handlings).takenBack.count registration = 1) ∧
      ∀ events network' stack', Run (Network.start memory) [.script program] events network' stack' →
        (∀ registration ∈ Handling.received handlings, Standing network' stack' registration ∧
          (.detached registration ∈ events →
            registration ∈ (Cabinet.after handlings).takenBack)) →
        ∀ number handle, (Cabinet.after handlings).handle? number = some handle →
          TakesBack handle network' := by
  have sound := (Sound.start memory program).run reached
  rw [List.nil_append] at sound
  refine ⟨fun key => ⟨?_, ?_, ?_⟩, ?_, ?_, fun handlings distinct => ⟨?_, ?_, ?_⟩⟩
  · rintro ⟨m, l⟩ listed rfl
    have small := small_of_leafAt
      (sound.accounted.place key m l ((sound.accounted.listening key m l).mp listed))
    exact absurd small (Nat.not_lt.mpr (Nat.le_of_eq number))
  · exact filter_listeners_since number since sound returned kept key
  · exact Handle.length_listenersAt stream n key
  · exact takesBack_since number since sound returned kept
  · rintro next below again final above rfl run
    refine ⟨rfl, ?_⟩
    exact (sound.subscribed number since).detach_again
      (fun registration listed => standing_since number since returned listed) run
  · exact (Cabinet.nodup_after distinct).1
  · intro before number handle after place there registration keeps
    exact Cabinet.taken_back_once distinct place there keeps
  · intro events network' stack' run standing number handle there
    exact takesBack_after run distinct standing there

/-- A stream that listens to one subject on both sides. -/
def bothSides : Stream Nat Nat Empty (Nat × Nat) := .pair (.subject 0) (.subject 0)

def publishAndLeave (handle : Handle Nat) : Script Nat Nat Empty Unit :=
  .publish 0 5 fun _ => .detach handle.released .done

def hearOnce : Script Nat Nat Empty Unit :=
  .subscribe bothSides (fun _ => .done) publishAndLeave

/-- The handle takes back two listeners, and so does the one that it is merged into. -/
theorem hearOnce_takes_back : ∃ (events : List (Event Nat Nat))
    (network : Network Nat Nat Empty Unit) (stack : List (Frame Nat Nat Empty Unit)),
    Run (Network.start ()) [.script hearOnce] events network stack ∧
      (network.subject 0).listeners = [(0, 0), (0, 1)] ∧
      TakesBack (bothSides.handle 0) network ∧
      TakesBack ((bothSides.handle 0).merge (Handle.close (bothSides.handle 0))) network := by
  have reached : Run (Network.start ()) [.script hearOnce] [] (Network.start ())
      [.script hearOnce] := .still _ _
  obtain ⟨later, last, stack, since, only, openings_eq, listeners⟩ : ∃ later last stack,
      Run ((Network.start ()).enlisted bothSides fun _ => .done)
        [.opening 0 0 bothSides.leaves (publishAndLeave (bothSides.handle 0))] later last stack ∧
      later = [.attached ⟨0, 0, 0⟩ none, .attached ⟨0, 0, 1⟩ none, .published 0 5, .setOut 0 5,
        .fed 0 0 (some 5), .fed 0 1 (some 5), .called 0 ⟨Nat × Nat, (5, 5)⟩] ∧
      openings stack = [] ∧ (last.subject 0).listeners = [(0, 0), (0, 1)] :=
    ⟨_, _, _, .step rfl (.step rfl (.step rfl (.step rfl (.step rfl (.step rfl (.step rfl
      (.step rfl (.still _ _)))))))), rfl, rfl, rfl⟩
  have returned : 0 ∉ openings stack := by simp [openings_eq]
  have kept : ∀ registration, .detached registration ∈ later → registration.subscription ≠ 0 := by
    simp [only]
  have run := reached.trans (.step rfl since)
  obtain ⟨_, takes, _, handled⟩ := handles_take_back rfl reached since returned kept
  refine ⟨_, last, stack, run, listeners, takes, ?_⟩
  -- The second handle keeps nothing and is closed before the two are merged.
  obtain ⟨_, _, merged⟩ := handled [.receive (bothSides.handle 0).registrations, .receive [],
    .unsubscribe 1, .merge 0 1] (by decide)
  refine merged _ last stack run (fun registration listed => ?_) 2 _ rfl
  have keeps : registration ∈ (bothSides.handle 0).registrations := listed
  have number : (Network.start () : Network Nat Nat Empty Unit).subscriptions.length = 0 := rfl
  refine ⟨standing_since number since returned keeps, fun member => ?_⟩
  rcases List.mem_cons.mp member with other | member
  · exact nomatch other
  · exact absurd (mem_handle.mp keeps).1 (kept registration member)

end Network

end Switchboard
