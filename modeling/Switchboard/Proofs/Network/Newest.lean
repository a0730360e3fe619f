import Switchboard.Proofs.Network.Rest

/-!
# The newest pair

A value may be published from inside a listener while an older one is still on
its way, so listeners of two combined subjects are woken in the middle of
updates, some of which are over before an earlier one is. A subscription is
never behind itself: when its listener is called, the value is what its stream
makes of all that has come in until then. So a listener of two combined
subjects hears the newest pair. When everything that was begun has returned,
nothing is on its way any more, and the newest pair is the pair of the latest
values.
-/
namespace Switchboard

variable {κ ν ρ σ : Type} [DecidableEq κ]

open Event

namespace Stream

omit [DecidableEq κ] in
/-- What two combined subjects have passed on last. -/
theorem last_subjects {γ : Type} (f : ν → ν → γ) (p q : κ) (feeds : List (Nat × Option ν)) :
    (Stream.combine f (.subject p) (.subject q) : Stream κ ν ρ γ).last feeds =
      (valuesAt 0 feeds).getLast?.bind fun a => (valuesAt 1 feeds).getLast?.map (f a) := by
  rw [last_combine]
  simp only [last, course_subject, leaves, List.length_singleton, valuesAt_window _ _ _ Nat.one_pos]

end Stream

namespace Network

variable {events es past later : List (Event κ ν)} {network next : Network κ ν ρ σ}
variable {frame : Frame κ ν ρ σ} {stack frames rest : List (Frame κ ν ρ σ)}

omit [DecidableEq κ] in
/-- Being fed, a subscription calls its listener at most once, and that comes last. -/
theorem feedEvents_of_called {n s l : Nat} {incoming : Option ν} {value : (α : Type) × α}
    {pre post : List (Event κ ν)}
    (place : network.feedEvents s l incoming = pre ++ .called n value :: post) : post = [] := by
  rcases network.feed_cases s l incoming with ⟨_, fed⟩ | ⟨sub, a, _, _, fed⟩
  · rw [fed] at place
    cases pre with
    | nil => exact nomatch (List.cons.inj place).1
    | cons first pre => simp at place
  · rw [fed] at place
    cases pre with
    | nil => exact nomatch (List.cons.inj place).1
    | cons first pre =>
      have call := (List.cons.inj place).2
      cases pre with
      | nil => exact (List.cons.inj call).2.symm
      | cons second pre => simp at call

/-- A call is the last that happens in its step. -/
theorem Transition.of_called {n : Nat} {value : (α : Type) × α} {pre post : List (Event κ ν)}
    (transition : Transition network frame es next frames)
    (place : es = pre ++ .called n value :: post) : post = [] := by
  have member : .called n value ∈ es := by simp [place]
  cases transition with
  | delivered => exact feedEvents_of_called place
  | supplied => exact feedEvents_of_called place
  | replayed =>
    cases pre with
    | nil => exact nomatch (List.cons.inj place).1
    | cons first pre => exact feedEvents_of_called (List.cons.inj place).2
  | _ => simp at member

/--
When a listener is called, the value is the newest one that its stream makes of what the
subscription has taken in.
-/
theorem Run.called_newest {memory : σ} {program : Script κ ν ρ σ}
    (run : Run (Network.start memory) [.script program] events network stack) {n : Nat}
    {s : Subscription κ ν ρ σ} (there : network.subscriptions[n]? = some s)
    {value : (α : Type) × α} (place : events = past ++ .called n value :: later) :
    ∃ a, s.stream.last (feeds n past) = some a ∧ value = ⟨s.α, a⟩ := by
  obtain ⟨before, after, frame, below, above, earlier, pre, post, future, first, here, own, second,
    rfl, rfl⟩ := run.split place
  obtain ⟨frames, rfl, transition⟩ := transition_of_step here
  obtain rfl := transition.of_called own
  have sound := ((Sound.start memory program).run first).step transition
  rw [own, List.nil_append, ← List.append_assoc] at sound
  generalize earlier ++ pre = past at sound
  have unfed : feeds n (past ++ [.called n value]) = feeds n past := by simp [feeds, feed?]
  have called : calls n (past ++ [.called n value]) = calls n past ++ [value] := by
    simp [calls, call?]
  cases at_call : after.subscriptions[n]? with
  | none =>
    have never := (sound.recorded.fresh n (List.getElem?_eq_none_iff.mp at_call)).2
    simp [called] at never
  | some sub =>
    obtain ⟨state, same⟩ := second.keeps n sub at_call
    obtain rfl := Option.some.inj (there.symm.trans same)
    have all := sound.recorded.calls n sub at_call
    rw [unfed, called] at all
    have ends := congrArg List.getLast? all
    rw [List.getLast?_concat, List.getLast?_map] at ends
    obtain ⟨a, newest, same⟩ := Option.map_eq_some_iff.mp ends.symm
    exact ⟨a, newest, same.symm⟩

/--
As long as a leaf is attached, the last value that it has taken in or still has on its way is the
latest one of its subject.
-/
theorem Sound.newest_listed (sound : Sound events network stack) {n l : Nat} {key : κ}
    (listed : (n, l) ∈ (network.subject key).listeners) :
    (received n l events ++ pending n l stack).getLast? = network.latest key := by
  have line := (sound.accounted.listening key n l).mp listed
  have here := sound.accounted.place key n l line
  have reached : ¬network.Untouched stack n l := fun untouched => by
    rw [sound.accounted.untouched n l untouched] at line
    cases line
  obtain ⟨past, current, later, split, -, -, never, has, opened⟩ :=
    sound.attached_once here reached
  have latest : network.latest key = (departures key events).getLast? := sound.flowing.latest key
  rw [opened, line_open_iff never] at line
  rw [sound.accounted.even, opened, account_open key never, stay_eq line.2, latest, split,
    departures_append, departures_cons, has, getLast?_latest_append]
  rfl

/-- Everything that was begun has returned; at most a script may have more to do. -/
def Returned (stack : List (Frame κ ν ρ σ)) : Prop := ∀ frame ∈ stack, ∃ script, frame = .script script

omit [DecidableEq κ] in
theorem Returned.pending (returned : Returned stack) (n l : Nat) : pending n l stack = [] := by
  refine List.flatMap_eq_nil_iff.mpr fun frame member => ?_
  obtain ⟨script, rfl⟩ := returned frame member
  rfl

/--
A listener of two combined subjects, in any run in which listeners may publish, attach and detach
as they like: each time it is called, the value is made of the newest ones that both sides have
passed on until then; and when everything that was begun has returned and it is still attached, it
was called last with what is made of the latest values of both subjects, or never if one of them
has none.
-/
theorem combined_newest {memory : σ} {program : Script κ ν ρ σ}
    (run : Run (Network.start memory) [.script program] events network stack) {γ : Type}
    {f : ν → ν → γ} {p q : κ} {n : Nat} {state : (Stream.combine f (.subject p) (.subject q)).State}
    {listener : γ → Script κ ν ρ σ}
    (there : network.subscriptions[n]? =
      some ⟨.combine f (.subject p) (.subject q), state, listener⟩) :
    (∀ past value later, events = past ++ .called n value :: later →
      ∃ a b, (received n 0 past).getLast? = some a ∧ (received n 1 past).getLast? = some b ∧
        value = ⟨γ, f a b⟩) ∧
    (Returned stack → (n, 0) ∈ (network.subject p).listeners →
      (n, 1) ∈ (network.subject q).listeners →
      (∀ a b, network.latest p = some a → network.latest q = some b →
        (calls n events).getLast? = some ⟨γ, f a b⟩) ∧
      (network.latest p = none ∨ network.latest q = none → calls n events = [])) := by
  have sound := (Sound.start memory program).run run
  rw [List.nil_append] at sound
  constructor
  · intro past value later place
    obtain ⟨c, newest, rfl⟩ := run.called_newest there place
    rw [Stream.last_subjects, ← received_eq_feeds, ← received_eq_feeds] at newest
    obtain ⟨a, left, newest⟩ := Option.bind_eq_some_iff.mp newest
    obtain ⟨b, right, rfl⟩ := Option.map_eq_some_iff.mp newest
    exact ⟨a, b, left, right, rfl⟩
  · intro returned left right
    have newest_left := sound.newest_listed left
    have newest_right := sound.newest_listed right
    rw [returned.pending, List.append_nil, received_eq_feeds] at newest_left newest_right
    have all := sound.recorded.calls n _ there
    have newest := Stream.last_subjects (ρ := ρ) f p q (feeds n events)
    rw [newest_left, newest_right] at newest
    constructor
    · intro a b latest_p latest_q
      rw [latest_p, latest_q] at newest
      rw [all, List.getLast?_map]
      exact congrArg _ newest
    · intro missing
      have none_passed : (Stream.combine f (.subject p) (.subject q) : Stream κ ν ρ γ).last
          (feeds n events) = none := by
        rw [newest]
        rcases missing with missing | missing <;> simp [missing]
      rw [all, List.getLast?_eq_none_iff.mp none_passed]
      rfl

/-- One subject follows the other, which stays one ahead, until 3 is reached; a watcher sees both. -/
def following : Script Nat Nat Empty Unit :=
  .subscribe (.combine Prod.mk (.subject 0) (.subject 1)) (fun _ => .done) fun _ =>
  .subscribe (.subject 0) (fun v => if v < 3 then .publish 1 v fun _ => .done else .done) fun _ =>
  .subscribe (.subject 1) (fun v => .publish 0 (v + 1) fun _ => .done) fun _ =>
  .publish 0 0 fun _ => .done

theorem following_settles : ∃ events network,
    Run (Network.start ()) [.script following] events network [] ∧
      network.latest 0 = some 3 ∧ network.latest 1 = some 2 ∧
      (calls 0 events).getLast? = some ⟨Nat × Nat, (3, 2)⟩ := by
  have ends : (settle 80 (Network.start ()) [.script following]).isSome := rfl
  have run := run_of_settle (Option.some_get ends).symm
  obtain ⟨state, there⟩ : ∃ state : (Stream.combine Prod.mk (.subject 0) (.subject 1)).State,
      ((settle 80 (Network.start ()) [.script following]).get ends).subscriptions[0]? =
        some ⟨.combine Prod.mk (.subject 0) (.subject 1), state, fun _ => .done⟩ := ⟨_, rfl⟩
  obtain ⟨_, settled⟩ := combined_newest run there
  refine ⟨_, _, run, rfl, rfl, ?_⟩
  exact (settled (fun _ member => nomatch member) List.mem_cons_self List.mem_cons_self).1 3 2 rfl rfl

end Network

end Switchboard
