import Switchboard.Proofs.Network.Sound

/-!
# Ordered delivery

What the listeners of subjects can rely on, whatever other listeners do in the
meantime. All values of a subject set out in the order of their publication.
A subscriber hears the value that the subject has when it comes, and then all
that set out until it leaves, in the same order. If it leaves while a value is
on its way to it, that is the only one that may still come.
-/
namespace Switchboard

variable {κ ν ρ σ : Type} [DecidableEq κ]

open Event

namespace Network

variable {events es past later : List (Event κ ν)} {network next : Network κ ν ρ σ}
variable {frame : Frame κ ν ρ σ} {stack frames rest : List (Frame κ ν ρ σ)}

/-- A leaf has at most one value on its way, and then it is the latest of its subject. -/
theorem Sound.pending_leaf (sound : Sound events network stack) {n l : Nat} {key : κ}
    (here : network.leafAt n l = some (.subject key)) :
    pending n l stack = [] ∨ ∃ value, pending n l stack = [value] ∧ key ∈ carried stack ∧
      network.latest key = some value := by
  have found : pending n l stack = [] ∨
      ∃ value, pending n l stack = [value] ∧ (key, value) ∈ loads stack := by
    have fits := sound.accounted.fits
    have single := sound.flowing.single
    clear sound
    induction stack with
    | nil => exact .inl rfl
    | cons frame rest ih =>
      have fits_rest (f : Frame κ ν ρ σ) (h : f ∈ rest) : f.Fits network :=
        fits f (List.mem_cons_of_mem _ h)
      rw [pending_cons]
      cases frame with
      | script => exact ih fits_rest single
      | opening => exact ih fits_rest single
      | fanOut place value waiting audience go =>
        obtain ⟨alone, single⟩ := List.nodup_cons.mp single
        by_cases waits : (n, l) ∈ waiting
        · have placed := (fits _ List.mem_cons_self).2 n l waits
          obtain rfl : place = key := by simpa using placed.symm.trans here
          have below : pending n l rest = [] := pending_eq_nil fits_rest here alone
          refine .inr ⟨value, ?_, List.mem_cons_self⟩
          simp [Frame.pending, waits, below]
        · simp only [Frame.pending, if_neg waits, List.nil_append, loads_fanOut]
          refine (ih fits_rest single).imp_right ?_
          rintro ⟨v, one, member⟩
          exact ⟨v, one, List.mem_cons_of_mem _ member⟩
  refine found.imp_right ?_
  rintro ⟨value, one, member⟩
  exact ⟨value, one, List.mem_map_of_mem (f := Prod.fst) member, sound.flowing.carrying _ member⟩

omit [DecidableEq κ] in
/-- A subscriber to a subject is called with what it takes in. -/
theorem Recorded.calls_subject (recorded : Recorded events network) {n : Nat} {key : κ}
    {state : (Stream.subject key : Stream κ ν ρ ν).State} {listener : ν → Script κ ν ρ σ}
    (h : network.subscriptions[n]? = some ⟨.subject key, state, listener⟩) :
    Event.calls n events = (received n 0 events).map (Sigma.mk ν) := by
  rw [recorded.calls n _ h, received_eq_feeds]
  exact congrArg _ (Stream.course_subject key _)

/--
A subscriber has heard the value that its subject had when it came, and what has set out since
then and before it left, up to a value that is still on its way to it.
-/
def HeardInOrder (n : Nat) (key : κ) (events : List (Event κ ν))
    (stack : List (Frame κ ν ρ σ)) : Prop :=
  ∃ past current later, events = past ++ .attached ⟨key, n, 0⟩ current :: later ∧
    currents n 0 past = [] ∧ currents n 0 later = [] ∧
    current = (departures key past).getLast? ∧
    calls n events ++ (pending n 0 stack).map (Sigma.mk ν) =
      (current.toList ++ departures key (stay ⟨key, n, 0⟩ later)).map (Sigma.mk ν)

theorem Run.heard_in_order {memory : σ} {program : Script κ ν ρ σ}
    (run : Run (Network.start memory) [.script program] events network stack) {n : Nat} {key : κ}
    {state : (Stream.subject key : Stream κ ν ρ ν).State} {listener : ν → Script κ ν ρ σ}
    (there : network.subscriptions[n]? = some ⟨.subject key, state, listener⟩) :
    ((∃ go, .opening n 0 [.subject key] go ∈ stack) ∧ calls n events = []) ∨
      HeardInOrder n key events stack := by
  have sound := (Sound.start memory program).run run
  rw [List.nil_append] at sound
  have here : network.leafAt n 0 = some (.subject key) := by simp [leafAt, there, Stream.leaves]
  have even := sound.accounted.even n 0
  by_cases untouched : network.Untouched stack n 0
  · refine .inl ⟨?_, ?_⟩
    · rcases untouched with beyond | ⟨reached, leaves, go, member, le⟩
      · have small := (List.getElem?_eq_some_iff.mp there).1
        omega
      · obtain rfl : reached = 0 := by omega
        obtain ⟨sub, found, rfl⟩ := sound.accounted.fits _ member
        obtain rfl := Option.some.inj (there.symm.trans found)
        exact ⟨go, member⟩
    · rw [sound.accounted.untouched n 0 untouched] at even
      rw [sound.recorded.calls_subject there, (List.append_eq_nil_iff.mp even).1]
      rfl
  · refine .inr ?_
    obtain ⟨past, current, later, split, -, before, after, has, opened⟩ :=
      sound.attached_once here untouched
    refine ⟨past, current, later, split, before, after, has, ?_⟩
    rw [sound.recorded.calls_subject there, ← List.map_append, even, opened,
      account_open key after]

/--
After a subscriber has left, it hears at most the value that was on its way to it then, and that
one once.
-/
theorem Run.heard_after_detach {memory : σ} {program : Script κ ν ρ σ}
    {registrations : List (Registration κ)} {go : Script κ ν ρ σ}
    (first : Run (Network.start memory) [.script program] past network
      (.script (.detach registrations go) :: rest))
    (second : Run (network.detach registrations) (.script go :: rest) later next stack)
    {n : Nat} {key : κ} {state : (Stream.subject key : Stream κ ν ρ ν).State}
    {listener : ν → Script κ ν ρ σ}
    (there : next.subscriptions[n]? = some ⟨.subject key, state, listener⟩)
    (attached : currents n 0 past ≠ []) (taken : ⟨key, n, 0⟩ ∈ registrations) :
    calls n later ++ (pending n 0 stack).map (Sigma.mk ν) =
        (pending n 0 rest).map (Sigma.mk ν) ∧
      (pending n 0 rest = [] ∨ ∃ value, pending n 0 rest = [value] ∧ key ∈ carried rest ∧
        network.latest key = some value) := by
  have before := (Sound.start memory program).run first
  rw [List.nil_append] at before
  have leaves : Transition network (.script (.detach registrations go))
      (registrations.map .detached) (network.detach registrations) [.script go] := .detached
  have middle := before.step leaves
  have after := middle.run second
  obtain ⟨sub, found⟩ : ∃ sub, network.subscriptions[n]? = some sub := by
    by_cases old : n < network.subscriptions.length
    · exact ⟨_, List.getElem?_eq_getElem old⟩
    · exact absurd (before.opened.unreached n 0 (.inl (by omega))).1 attached
  have keeps : network.Keeps next := .trans (.of_eq (by simp)) second.keeps
  obtain ⟨stream, state₀, listener₀⟩ := sub
  obtain ⟨state', same⟩ : ∃ state', next.subscriptions[n]? = some ⟨stream, state', listener₀⟩ :=
    keeps n _ found
  cases there.symm.trans same
  have here : network.leafAt n 0 = some (.subject key) := by simp [leafAt, found, Stream.leaves]
  have never : currents n 0 later = [] := by
    refine after.never_again (keeps.leafAt here) ?_
    rw [currents_append]
    exact fun nothing => attached (List.append_eq_nil_iff.mp nothing).1
  have closed : account n 0 (past ++ registrations.map .detached) =
      ⟨none, (account n 0 past).due⟩ := by
    rw [account_append, enter_detached]
    cases line : (account n 0 past).line with
    | none => rfl
    | some place =>
      have leaf := before.accounted.place place n 0 line
      obtain rfl : key = place := by simpa [here] using leaf
      simp [Option.filter, taken]
  have even_before := before.accounted.even n 0
  have even_after := after.accounted.even n 0
  rw [account_append, closed, account_closed never, ← even_before] at even_after
  have no_feed : received n 0 (registrations.map Event.detached) = ([] : List ν) := by
    simp [received, received?, Function.comp_def]
  have rest_eq : received n 0 later ++ pending n 0 stack = pending n 0 rest := by
    simpa [no_feed, Frame.pending] using even_after
  have calls_later : calls n later = (received n 0 later).map (Sigma.mk ν) := by
    have all := after.recorded.calls_subject same
    have until_then := middle.recorded.calls_subject (by rw [detach_subscriptions, found])
    rw [calls_append, received_append, List.map_append, until_then] at all
    exact List.append_cancel_left all
  refine ⟨?_, before.pending_leaf here⟩
  rw [calls_later, ← List.map_append, rest_eq]

/--
Ordered, exactly-once delivery, for every run and at every moment of it: what has set out from a
subject and what waits in its queue is what was published there, and when no fan-out is running it
is all; every subscriber hears what is due to it in order, one value at most being on its way; and
after it has left, at most the value of a fan-out that was running then still reaches it.
-/
theorem delivered_once_in_order {memory : σ} {program : Script κ ν ρ σ}
    (run : Run (Network.start memory) [.script program] events network stack) :
    (∀ key, departures key events ++ (network.subject key).queue = publications key events) ∧
    (∀ key, key ∉ carried stack → departures key events = publications key events ∧
      network.latest key = (publications key events).getLast?) ∧
    (∀ n key state listener, network.subscriptions[n]? = some ⟨.subject key, state, listener⟩ →
      (((∃ go, .opening n 0 [.subject key] go ∈ stack) ∧ calls n events = []) ∨
        HeardInOrder n key events stack) ∧
      (pending n 0 stack = [] ∨ ∃ value, pending n 0 stack = [value] ∧ key ∈ carried stack ∧
        network.latest key = some value)) ∧
    (∀ past before registrations go rest later n key state listener,
      Run (Network.start memory) [.script program] past before
        (.script (.detach registrations go) :: rest) →
      Run (before.detach registrations) (.script go :: rest) later network stack →
      network.subscriptions[n]? = some ⟨.subject key, state, listener⟩ →
      currents n 0 past ≠ [] → ⟨key, n, 0⟩ ∈ registrations →
      calls n later ++ (pending n 0 stack).map (Sigma.mk ν) =
          (pending n 0 rest).map (Sigma.mk ν) ∧
        (pending n 0 rest = [] ∨ ∃ value, pending n 0 rest = [value] ∧ key ∈ carried rest ∧
          before.latest key = some value)) := by
  have sound := (Sound.start memory program).run run
  rw [List.nil_append] at sound
  refine ⟨sound.flowing.queue, ?_, ?_, ?_⟩
  · intro key idle
    have still : (network.subject key).busy = false := by
      rw [Bool.eq_false_iff]
      exact mt (sound.flowing.busy key).mp idle
    have all := sound.flowing.queue key
    rw [sound.flowing.empty key still, List.append_nil] at all
    exact ⟨all, by rw [← all]; exact sound.flowing.latest key⟩
  · intro n key state listener there
    have here : network.leafAt n 0 = some (.subject key) := by simp [leafAt, there, Stream.leaves]
    exact ⟨run.heard_in_order there, sound.pending_leaf here⟩
  · intro past before registrations go rest later n key state listener first second there
      attached taken
    exact first.heard_after_detach second there attached taken

/-- Two listeners; the first answers 1 with 2 while 1 is on its way, the second leaves after that. -/
def twoListeners : Script Nat Nat Empty Unit :=
  .subscribe (.subject 0) (fun v => if v = 1 then .publish 0 2 fun _ => .done else .done) fun _ =>
  .subscribe (.subject 0) (fun _ => .done) fun second =>
  .publish 0 1 fun _ => .detach second.registrations (.publish 0 3 fun _ => .done)

theorem twoListeners_delivered : ∃ events network,
    Run (Network.start ()) [.script twoListeners] events network [] ∧
      departures 0 events = [1, 2, 3] ∧ network.latest 0 = some 3 ∧
      HeardInOrder 1 0 events ([] : List (Frame Nat Nat Empty Unit)) := by
  have ends : (settle 40 (Network.start ()) [.script twoListeners]).isSome := rfl
  have run := run_of_settle (Option.some_get ends).symm
  obtain ⟨_, idle, heard, _⟩ := delivered_once_in_order run
  obtain ⟨all, latest⟩ := idle 0 List.not_mem_nil
  refine ⟨_, _, run, all.trans rfl, latest.trans rfl, ?_⟩
  rcases (heard 1 0 () (fun _ => .done) rfl).1 with ⟨⟨_, opening⟩, _⟩ | in_order
  · exact nomatch opening
  · exact in_order

end Network

end Switchboard
