import Switchboard.Proofs.Network.Quiet

/-!
# Networks at rest

Where nothing is left to do, every leaf has taken in all that was due to it.
Unless it has been detached, that is the value that its subject had when the
subscription came, and all that has set out since then.
-/
namespace Switchboard

variable {κ ν ρ σ : Type}

open Event

namespace Event

/-- Events that take no leaf away. -/
def Staying (events : List (Event κ ν)) : Prop := ∀ registration, .detached registration ∉ events

theorem Staying.append {before after : List (Event κ ν)} (h : Staying before)
    (h' : Staying after) : Staying (before ++ after) := by
  intro registration member
  rcases List.mem_append.mp member with member | member
  · exact h registration member
  · exact h' registration member

theorem Staying.of_still {es : List (Event κ ν)} (still : ∀ e ∈ es, e.Still) : Staying es :=
  fun _ member => still _ member

/-- Of what came before, the latest is enough to tell what is the latest now. -/
theorem getLast?_latest_append {α : Type} (before after : List α) :
    (before.getLast?.toList ++ after).getLast? = (before ++ after).getLast? := by
  rw [List.getLast?_append, List.getLast?_append]
  cases before.getLast? <;> rfl

/--
A subscription that came promptly after some events: all its leaves were attached before anything
else set out.
-/
def Prompt (n : Nat) (before events : List (Event κ ν)) : Prop :=
  ∀ past registration current later, events = past ++ .attached registration current :: later →
    registration.subscription = n → sent past = sent before

end Event

namespace Network

variable [DecidableEq κ] {events es before after : List (Event κ ν)}
variable {network next : Network κ ν ρ σ} {stack final : List (Frame κ ν ρ σ)}

omit [DecidableEq κ] in
/-- At rest, all leaves have been reached. -/
theorem reached_at_rest {n l : Nat} (small : n < network.subscriptions.length) :
    ¬network.Untouched [] n l := by
  rintro (beyond | ⟨_, _, _, member, _⟩)
  · omega
  · exact nomatch member

omit [DecidableEq κ] in
theorem small_of_leafAt {n l : Nat} {leaf : Leaf κ} (here : network.leafAt n l = some leaf) :
    n < network.subscriptions.length := by
  obtain ⟨_, found, _⟩ := Option.bind_eq_some_iff.mp here
  exact (List.getElem?_eq_some_iff.mp found).1

/--
What a leaf has taken in and has still to take in, once it has been attached, if nothing has been
detached since some time before that.
-/
theorem Sound.due_since (sound : Sound events network stack) (split : events = before ++ after)
    {n l : Nat} (unattached : currents n l before = []) (staying : Staying after) {key : κ}
    (here : network.leafAt n l = some (.subject key))
    (reached : ¬network.Untouched stack n l) :
    ∃ past current later, events = past ++ .attached ⟨key, n, l⟩ current :: later ∧
      currents n l events = [current] ∧ current = (departures key past).getLast? ∧
      received n l events ++ pending n l stack = current.toList ++ departures key later := by
  obtain ⟨past, current, later, place, once, -, never, has, opened⟩ :=
    sound.attached_once here reached
  refine ⟨past, current, later, place, once, has, ?_⟩
  have stays : .detached ⟨key, n, l⟩ ∉ later := by
    obtain ⟨more, -, now⟩ := split_after (split.symm.trans place) unattached
    intro member
    exact staying ⟨key, n, l⟩ (by rw [now]; simp [member])
  rw [sound.accounted.even, opened, account_open key never, stay_eq stays]

/-- What a leaf has taken in and has still to take in, once it has been attached. -/
theorem Sound.due (sound : Sound events network stack) (staying : Staying events) {n l : Nat}
    {key : κ} (here : network.leafAt n l = some (.subject key))
    (reached : ¬network.Untouched stack n l) :
    ∃ past current later, events = past ++ .attached ⟨key, n, l⟩ current :: later ∧
      currents n l events = [current] ∧ current = (departures key past).getLast? ∧
      received n l events ++ pending n l stack = current.toList ++ departures key later :=
  sound.due_since (List.nil_append _).symm rfl staying here reached

/-- At rest, the last value that a leaf has taken in is the latest one of its subject. -/
theorem Sound.up_to_date (sound : Sound events network []) (split : events = before ++ after)
    {n l : Nat} (unattached : currents n l before = []) (staying : Staying after) {key : κ}
    (here : network.leafAt n l = some (.subject key)) :
    ∃ current later, currents n l events = [current] ∧
      received n l events = current.toList ++ later ∧
      network.latest key = (current.toList ++ later).getLast? := by
  obtain ⟨past, current, later, place, once, has, received⟩ :=
    sound.due_since split unattached staying here (reached_at_rest (small_of_leafAt here))
  refine ⟨current, departures key later, once, by simpa using received, ?_⟩
  have latest : network.latest key = (departures key events).getLast? := sound.flowing.latest key
  rw [latest, place, departures_append, departures_cons, has, getLast?_latest_append]
  rfl

/-- The latest value of a line stays where nothing sets out there. -/
theorem latest_of_none_departed (sound : Sound events network [])
    (sound' : Sound (events ++ es) next []) {key : κ} (nothing : departures key es = []) :
    next.latest key = network.latest key := by
  have before : network.latest key = (departures key events).getLast? := sound.flowing.latest key
  have after : next.latest key = (departures key (events ++ es)).getLast? :=
    sound'.flowing.latest key
  rw [after, departures_append, nothing, List.append_nil, before]

/-- What a leaf of a prompt subscription has taken in when the network is at rest. -/
theorem Sound.heard_at_rest (sound : Sound events network []) (staying : Staying events)
    (split : events = before ++ after) {n l : Nat} (prompt : Prompt n before events) {key : κ}
    (here : network.leafAt n l = some (.subject key)) :
    currents n l events = [(departures key before).getLast?] ∧
      received n l events = (departures key before).getLast?.toList ++ departures key after := by
  obtain ⟨past, current, later, place, once, has, received⟩ :=
    sound.due staying here (reached_at_rest (small_of_leafAt here))
  have sent_past := prompt past ⟨key, n, l⟩ current later place rfl
  have departed : departures key past = departures key before := by
    rw [departures, sent_past, ← departures]
  have since : departures key later = departures key after := by
    have all : departures key events = departures key before ++ departures key after := by
      rw [split, departures_append]
    rw [place, departures_append, departures_cons, departed] at all
    exact List.append_cancel_left all
  rw [pending_nil, List.append_nil] at received
  rw [once, has, received, departed, since, has, departed]
  exact ⟨rfl, rfl⟩

/-- A subscription that is opened while nothing sets out is prompt. -/
theorem Sound.prompt (sound : Sound events network []) (still : ∀ e ∈ es, e.Still) :
    Prompt network.subscriptions.length events (events ++ es) := by
  intro past registration current later place here
  have never := (sound.opened.unreached registration.subscription registration.leaf
    (.inl (Nat.le_of_eq here.symm))).1
  obtain ⟨more, rfl, now⟩ := split_after place never
  have silent : sent more = [] :=
    sent_still fun e member => still e (by rw [now]; simp [member])
  rw [sent_append, silent, List.append_nil]

/-- It stays prompt when more happens. -/
theorem Sound.prompt_more (sound : Sound events network []) {n : Nat}
    (prompt : Prompt n before events) (small : n < network.subscriptions.length) (keeps : network.Keeps next)
    (sound' : Sound (events ++ es) next stack) : Prompt n before (events ++ es) := by
  intro past registration current later place here
  obtain ⟨_, leaf⟩ := sound'.placed past registration current later place
  have before_leaf : network.leafAt registration.subscription registration.leaf =
      some (.subject registration.subject) := by
    rw [here] at leaf ⊢
    obtain ⟨sub, found⟩ : ∃ sub, network.subscriptions[n]? = some sub :=
      ⟨_, List.getElem?_eq_getElem small⟩
    obtain ⟨state, same⟩ := keeps n sub found
    simpa [leafAt, found, same] using leaf
  obtain ⟨value, once⟩ := (sound.opened.attached _ _ _ before_leaf).resolve_left
    (reached_at_rest (by rw [here]; exact small))
  have no_more : currents registration.subscription registration.leaf es = [] := by
    rcases sound'.opened.attached _ _ _ leaf with untouched | ⟨_, once'⟩
    · have never := (sound'.opened.unreached _ _ untouched).1
      rw [currents_append, once] at never
      cases never
    · rw [currents_append, once] at once'
      exact (List.cons.inj once').2
  obtain ⟨more, earlier, -⟩ := split_before place no_more
  exact prompt past registration current more earlier here

end Network

end Switchboard
