import Switchboard.Proofs.Network.Accounting
import Switchboard.Proofs.Stream.Course

/-!
# Subscriptions follow their streams

The state of a subscription and the calls of its listener are what its stream
makes of the values that the subscription has taken in. So a subscription can
be understood from the values at its leaves, without a look at the run around
them: a feed adds one to these, and calls the listener with what comes of it.
-/
namespace Switchboard

variable {κ ν ρ σ : Type}

/-- What stands in a list with one more at its end. -/
theorem getElem?_snoc_cases {α : Type*} {xs : List α} {x y : α} {n : Nat}
    (there : (xs ++ [x])[n]? = some y) : xs[n]? = some y ∨ n = xs.length ∧ y = x := by
  rw [List.getElem?_append] at there
  split at there
  · exact .inl there
  · rw [List.getElem?_singleton] at there
    split at there
    · exact .inr ⟨by omega, (Option.some.inj there).symm⟩
    · cases there

namespace Event

def feed? (subscription : Nat) : Event κ ν → Option (Nat × Option ν)
  | .fed s leaf incoming => if s = subscription then some (leaf, incoming) else none
  | _ => none

def call? (subscription : Nat) : Event κ ν → Option ((α : Type) × α)
  | .called s value => if s = subscription then some value else none
  | _ => none

/-- What a subscription has taken in, with the leaves. -/
def feeds (subscription : Nat) (events : List (Event κ ν)) : List (Nat × Option ν) :=
  events.filterMap (feed? subscription)

/-- The values that the listener of a subscription has been called with. -/
def calls (subscription : Nat) (events : List (Event κ ν)) : List ((α : Type) × α) :=
  events.filterMap (call? subscription)

@[simp] theorem feeds_append (subscription : Nat) (before after : List (Event κ ν)) :
    feeds subscription (before ++ after) =
      feeds subscription before ++ feeds subscription after := by
  simp [feeds]

@[simp] theorem calls_append (subscription : Nat) (before after : List (Event κ ν)) :
    calls subscription (before ++ after) =
      calls subscription before ++ calls subscription after := by
  simp [calls]

theorem received_eq_feeds (subscription leaf : Nat) (events : List (Event κ ν)) :
    received subscription leaf events =
      Stream.valuesAt leaf (feeds subscription events) := by
  unfold received feeds Stream.valuesAt
  rw [List.filterMap_filterMap]
  congr 1
  funext event
  cases event with
  | fed s l incoming =>
    cases incoming with
    | none => by_cases here : s = subscription <;> simp [received?, feed?, here]
    | some value =>
      by_cases here : s = subscription <;> by_cases there : l = leaf <;>
        simp [received?, feed?, here, there]
  | _ => rfl

theorem feeds_feedEvents (network : Network κ ν ρ σ) (subscription leaf : Nat)
    (incoming : Option ν) (n : Nat) :
    feeds n (network.feedEvents subscription leaf incoming) =
      if subscription = n then [(leaf, incoming)] else [] := by
  obtain ⟨calls, h⟩ := network.feedEvents_eq subscription leaf incoming
  rw [h]
  by_cases here : subscription = n <;> simp [feeds, feed?, here]

end Event

open Event

namespace Network

/-- Being fed calls nobody else. -/
theorem calls_feedEvents_of_ne {n m : Nat} (other : m ≠ n) (network : Network κ ν ρ σ) (leaf : Nat)
    (incoming : Option ν) : calls n (network.feedEvents m leaf incoming) = [] := by
  obtain ⟨called, h⟩ := network.feedEvents_eq m leaf incoming
  rw [h, calls, List.filterMap_cons_none rfl]
  exact filterMap_called (fun _ => if_neg other) called

/-- What a feed does to a subscription that has had certain feeds before. -/
theorem feed_course {network : Network κ ν ρ σ} {α : Type} {stream : Stream κ ν ρ α}
    {listener : α → Script κ ν ρ σ} {n : Nat} {fed : List (Nat × Option ν)}
    (here : network.subscriptions[n]? = some ⟨stream, (stream.course fed).1, listener⟩)
    (leaf : Nat) (incoming : Option ν) :
    (network.feed n leaf incoming).1.subscriptions[n]? =
        some ⟨stream, (stream.course (fed ++ [(leaf, incoming)])).1, listener⟩ ∧
      ∃ value : Option α,
        (stream.course (fed ++ [(leaf, incoming)])).2 = (stream.course fed).2 ++ value.toList ∧
        (network.feed n leaf incoming).2 = value.toList.map (fun a => .script (listener a)) ∧
        calls n (network.feedEvents n leaf incoming) = value.toList.map (Sigma.mk α) := by
  obtain ⟨small, _⟩ := List.getElem?_eq_some_iff.mp here
  unfold feed feedEvents
  rw [here, Stream.course_snoc, Stream.advance]
  cases pushed : stream.push (stream.course fed).1 leaf incoming with
  | error beyond =>
    simp only [pushed]
    exact ⟨here, none, by simp, rfl, rfl⟩
  | ok after =>
    simp only [pushed]
    refine ⟨List.getElem?_set_self small, after.value, rfl, rfl, ?_⟩
    rw [calls, List.filterMap_cons_none rfl]
    simp [call?, Function.comp_def]

/-- Events of which no subscription takes notice. -/
def Unheard (events : List (Event κ ν)) : Prop :=
  ∀ n, feeds n events = [] ∧ calls n events = []

/-- The subscriptions of a network agree with the events that have led to it. -/
structure Recorded (events : List (Event κ ν)) (network : Network κ ν ρ σ) : Prop where
  fresh : ∀ n, network.subscriptions.length ≤ n → feeds n events = [] ∧ calls n events = []
  state : ∀ (n : Nat) (s : Subscription κ ν ρ σ), network.subscriptions[n]? = some s →
    s.state = (s.stream.course (feeds n events)).1
  calls : ∀ (n : Nat) (s : Subscription κ ν ρ σ), network.subscriptions[n]? = some s →
    calls n events = (s.stream.course (feeds n events)).2.map (Sigma.mk s.α)

namespace Recorded

variable {events es : List (Event κ ν)} {network next : Network κ ν ρ σ}

theorem start (memory : σ) : Recorded [] (Network.start (κ := κ) (ν := ν) (ρ := ρ) memory) where
  fresh _ _ := ⟨rfl, rfl⟩
  state _ _ h := nomatch h
  calls _ _ h := nomatch h

theorem unheard (recorded : Recorded events network)
    (same : next.subscriptions = network.subscriptions) (silent : Unheard es) :
    Recorded (events ++ es) next := by
  refine ⟨?_, ?_, ?_⟩
  · intro n beyond
    rw [same] at beyond
    simp [recorded.fresh n beyond, silent n]
  · intro n s h
    rw [same] at h
    rw [feeds_append, (silent n).1, List.append_nil]
    exact recorded.state n s h
  · intro n s h
    rw [same] at h
    rw [feeds_append, calls_append, (silent n).1, (silent n).2, List.append_nil, List.append_nil]
    exact recorded.calls n s h

theorem subscribed {α : Type} {stream : Stream κ ν ρ α} {listener : α → Script κ ν ρ σ}
    (recorded : Recorded events network)
    (added : next.subscriptions = network.subscriptions ++ [⟨stream, stream.initial, listener⟩])
    (silent : Unheard es) : Recorded (events ++ es) next := by
  have fresh := recorded.fresh network.subscriptions.length (Nat.le_refl _)
  have cases_of {n : Nat} {s : Subscription κ ν ρ σ} (h : next.subscriptions[n]? = some s) :
      network.subscriptions[n]? = some s ∨
        n = network.subscriptions.length ∧ s = ⟨stream, stream.initial, listener⟩ :=
    getElem?_snoc_cases (added ▸ h)
  refine ⟨?_, ?_, ?_⟩
  · intro n beyond
    rw [added, List.length_append, List.length_singleton] at beyond
    simp [recorded.fresh n (by omega), silent n]
  · intro n s h
    rw [feeds_append, (silent n).1, List.append_nil]
    rcases cases_of h with h | ⟨rfl, rfl⟩
    · exact recorded.state n s h
    · rw [fresh.1]
      rfl
  · intro n s h
    rw [feeds_append, calls_append, (silent n).1, (silent n).2, List.append_nil, List.append_nil]
    rcases cases_of h with h | ⟨rfl, rfl⟩
    · exact recorded.calls n s h
    · rw [fresh.1, fresh.2]
      rfl

/-- A subscription that is fed goes one step further on its course; the others stay. -/
theorem feed {subscription leaf : Nat} {incoming : Option ν} (recorded : Recorded events network)
    (there : subscription < network.subscriptions.length) :
    Recorded (events ++ network.feedEvents subscription leaf incoming)
      (network.feed subscription leaf incoming).1 := by
  obtain ⟨sub, found⟩ : ∃ sub, network.subscriptions[subscription]? = some sub :=
    ⟨_, List.getElem?_eq_getElem there⟩
  have stands : network.subscriptions[subscription]? =
      some ⟨sub.stream, (sub.stream.course (feeds subscription events)).1, sub.listener⟩ := by
    rw [found, ← recorded.state subscription sub found]
  obtain ⟨fed, value, emitted, _, called⟩ := feed_course stands leaf incoming
  have feeds_here : feeds subscription (events ++ network.feedEvents subscription leaf incoming) =
      feeds subscription events ++ [(leaf, incoming)] := by
    rw [feeds_append, feeds_feedEvents, if_pos rfl]
  have elsewhere (n : Nat) (other : n ≠ subscription) :
      feeds n (network.feedEvents subscription leaf incoming) = [] ∧
        Event.calls n (network.feedEvents subscription leaf incoming) = [] :=
    ⟨by rw [feeds_feedEvents, if_neg other.symm], calls_feedEvents_of_ne other.symm network leaf _⟩
  refine ⟨?_, ?_, ?_⟩
  · intro n beyond
    rw [feed_length] at beyond
    have other : n ≠ subscription := by omega
    simp [recorded.fresh n beyond, elsewhere n other]
  · intro n s h
    by_cases same : n = subscription
    · subst same
      obtain rfl := Option.some.inj (fed.symm.trans h)
      rw [feeds_here]
    · rw [feed_other (Ne.symm same)] at h
      rw [feeds_append, (elsewhere n same).1, List.append_nil]
      exact recorded.state n s h
  · intro n s h
    by_cases same : n = subscription
    · subst same
      obtain rfl := Option.some.inj (fed.symm.trans h)
      rw [calls_append, recorded.calls n sub found, called, feeds_here, emitted, List.map_append]
    · rw [feed_other (Ne.symm same)] at h
      rw [feeds_append, calls_append, (elsewhere n same).1, (elsewhere n same).2,
        List.append_nil, List.append_nil]
      exact recorded.calls n s h

end Recorded

end Network

end Switchboard
