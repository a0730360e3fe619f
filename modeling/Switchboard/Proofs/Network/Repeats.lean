import Switchboard.Proofs.Network.Absence
import Switchboard.Proofs.Stream.Repeats

/-!
# Publishing the latest value again

Where nothing is left to do, every listener of a subject has taken in last what
is the latest value there: it has been replayed to those who have come since,
and the others have had it when it set out. So when it is published once more,
every listener is told what it has been told last. If whoever is roused by that
publishes nothing, the publication runs to its end, and nobody has been called
whose stream ignores what comes again.
-/
namespace Switchboard

variable {κ ν ρ σ : Type}

open Event

/-- Who is not called for what comes again, or else publishes nothing. -/
def Subscription.Unmoved (s : Subscription κ ν ρ σ) : Prop :=
  s.stream.IgnoresRepeats ∨ ∀ a, (s.listener a).Quiet fun _ => True

namespace Network

variable {events es : List (Event κ ν)} {network next : Network κ ν ρ σ}

/-- A subscription that ignores what comes again is not called for it. -/
theorem Recorded.feed_repeated (recorded : Recorded events network) {n leaf : Nat}
    {s : Subscription κ ν ρ σ} (found : network.subscriptions[n]? = some s)
    (ignores : s.stream.IgnoresRepeats) {value : ν}
    (repeated : s.stream.Repeated (feeds n events) leaf value) :
    (network.feed n leaf (some value)).2 = [] ∧
      Event.calls n (network.feedEvents n leaf (some value)) = [] := by
  have state := recorded.state n s found
  obtain ⟨stream, now, listener⟩ := s
  change now = (stream.course (feeds n events)).1 at state
  subst state
  unfold Network.feed feedEvents
  rw [found]
  cases pushes : stream.push (stream.course (feeds n events)).1 leaf (some value) with
  | error beyond => simp [pushes, Event.calls, call?]
  | ok pushed =>
    have nothing := ignores.push repeated pushes
    simp [pushes, nothing, Event.calls, call?]

variable [DecidableEq κ]

/-- Told again what it has been told last, a subscription rouses nobody, or who publishes nothing. -/
theorem Recorded.feed_settles (recorded : Recorded events network) {n leaf : Nat}
    {s : Subscription κ ν ρ σ} (found : network.subscriptions[n]? = some s) (unmoved : s.Unmoved)
    {value : ν} (repeated : s.stream.Repeated (feeds n events) leaf value) :
    ∃ middle, Run (network.feed n leaf (some value)).1 (network.feed n leaf (some value)).2 []
        middle [] ∧ (network.feed n leaf (some value)).1.Alike middle := by
  rcases unmoved with ignores | quiet
  · rw [(recorded.feed_repeated found ignores repeated).1]
    exact ⟨_, .still _ _, rfl, rfl⟩
  · rcases network.feed_cases n leaf (some value) with ⟨silent, _⟩ | ⟨s', a, found', woken, _⟩
    · rw [silent]
      exact ⟨_, .still _ _, rfl, rfl⟩
    · obtain rfl := Option.some.inj (found.symm.trans found')
      obtain ⟨middle, run, alike, _⟩ := run_quiet (quiet a) trivial
      rw [woken]
      exact ⟨middle, run, alike⟩

/-- Whoever has an account has been due the latest value last. -/
theorem Placed.due_latest (placed : Placed events network) {n leaf : Nat} {key : κ}
    (line : (account n leaf events).line = some key) :
    (account n leaf events).due.getLast? = (departures key events).getLast? := by
  induction events using List.reverseRecOn with
  | nil => cases line
  | append_singleton events e ih =>
    have earlier : Placed events network := fun past registration current later place =>
      placed past registration current (later ++ [e]) (by rw [place]; simp)
    specialize ih earlier
    rw [account_append, List.foldl_cons, List.foldl_nil] at line ⊢
    rw [departures_append]
    cases e with
    | attached registration current =>
      have has := (placed events registration current [] rfl).1
      by_cases here : registration.subscription = n ∧ registration.leaf = leaf
      · obtain rfl : registration.subject = key := by simpa [enter, here] using line
        simpa [enter, here, sent?, has] using getLast?_latest_append (departures _ events) []
      · simp only [enter, if_neg here] at line ⊢
        simpa [sent?] using ih line
    | setOut place value =>
      by_cases open_there : (account n leaf events).line = some place
      · simp only [enter, if_pos open_there] at line ⊢
        obtain rfl : place = key := Option.some.inj (open_there.symm.trans line)
        simp [sent?, valuesAt]
      · simp only [enter, if_neg open_there] at line ⊢
        have other : place ≠ key := by
          rintro rfl
          exact open_there line
        simpa [sent?, valuesAt, other] using ih line
    | detached registration =>
      by_cases closed : (account n leaf events).line = some registration.subject ∧
          registration.subscription = n ∧ registration.leaf = leaf
      · simp only [enter, if_pos closed] at line
        cases line
      · simp only [enter, if_neg closed] at line ⊢
        simpa [sent?] using ih line
    | _ => simpa [enter, sent?] using ih line

/-- Where nothing is left to do, every listener has taken in the latest value last. -/
theorem Sound.abreast (sound : Sound events network []) {key : κ} {n leaf : Nat}
    (listed : (n, leaf) ∈ (network.subject key).listeners) :
    (received n leaf events).getLast? = network.latest key := by
  have line := (sound.accounted.listening key n leaf).mp listed
  have even := sound.accounted.even n leaf
  rw [pending_nil, List.append_nil] at even
  rw [even, sound.placed.due_latest line]
  exact (sound.flowing.latest key).symm

/-- A fan-out of what its listeners have taken in last runs to its end. -/
theorem Sound.fanOut_repeated {key : κ} {value : ν} {waiting : List (Nat × Nat)} {audience : Nat}
    {go : Nat → Script κ ν ρ σ}
    (sound : Sound events network [.fanOut key value waiting audience go])
    (abreast : ∀ n leaf, (n, leaf) ∈ waiting → (received n leaf events).getLast? = some value)
    (unmoved : ∀ n leaf, (n, leaf) ∈ waiting → ∀ s, network.subscriptions[n]? = some s →
      s.Unmoved) :
    ∃ es next, Run network [.fanOut key value waiting audience go] es next
        [.fanOut key value [] audience go] ∧
      next.subjects = network.subjects ∧ (∀ e ∈ es, e.Still) ∧
      ∀ n s, network.subscriptions[n]? = some s → s.stream.IgnoresRepeats → calls n es = [] := by
  induction waiting generalizing events network with
  | nil => exact ⟨[], network, .still _ _, rfl, nofun, fun _ _ _ _ => rfl⟩
  | cons listener waiting ih =>
    obtain ⟨n, leaf⟩ := listener
    have placed := (sound.accounted.fits _ List.mem_cons_self).2 n leaf List.mem_cons_self
    obtain ⟨s, found, there⟩ := Option.bind_eq_some_iff.mp placed
    have before := abreast n leaf List.mem_cons_self
    rw [received_eq_feeds] at before
    have uncalled (ignores : s.stream.IgnoresRepeats) :=
      sound.recorded.feed_repeated found ignores ⟨⟨key, there⟩, before⟩
    obtain ⟨middle, first, alike⟩ := sound.recorded.feed_settles found
      (unmoved n leaf List.mem_cons_self s found) ⟨⟨key, there⟩, before⟩
    have goes : Run network [.fanOut key value ((n, leaf) :: waiting) audience go]
        (network.feedEvents n leaf (some value) ++ []) middle
          [.fanOut key value waiting audience go] :=
      .step rfl (first.above _)
    rw [List.append_nil] at goes
    have length : middle.subscriptions.length = network.subscriptions.length := by
      rw [alike.subscriptions, feed_length]
    obtain ⟨es, last, second, subjects, still, uncalled'⟩ := ih (sound.run goes)
      (fun n' leaf' waits => by
        rw [received_append, received_feedEvents]
        split
        · exact List.getLast?_concat
        · rw [List.append_nil]
          exact abreast n' leaf' (List.mem_cons_of_mem _ waits))
      (fun n' leaf' waits s' there' => by
        obtain ⟨old, state, here, rfl⟩ := goes.keeps.back length there'
        exact unmoved n' leaf' (List.mem_cons_of_mem _ waits) old here)
    refine ⟨network.feedEvents n leaf (some value) ++ es, last, goes.trans second, ?_, ?_, ?_⟩
    · rw [subjects, alike.subjects, feed_subjects]
    · exact List.forall_mem_append.mpr ⟨network.still_feedEvents n leaf _, still⟩
    · intro m s' here ignores
      obtain ⟨state, later⟩ := goes.keeps m s' here
      rw [calls_append, uncalled' m _ later ignores, List.append_nil]
      by_cases same : n = m
      · subst same
        obtain rfl := Option.some.inj (found.symm.trans here)
        exact (uncalled ignores).2
      · exact calls_feedEvents_of_ne same network leaf (some value)

/-- To publish the latest value again calls nobody whose stream ignores what comes again. -/
theorem Sound.republish (sound : Sound events network []) {key : κ} {value : ν}
    (current : network.latest key = some value) {go : Nat → Script κ ν ρ σ}
    (quiet : ∀ n, (go n).Quiet fun _ => True)
    (unmoved : ∀ n leaf, (n, leaf) ∈ (network.subject key).listeners →
      ∀ s, network.subscriptions[n]? = some s → s.Unmoved) :
    ∃ es next, Run network [.script (.publish key value go)] es next [] ∧
      (∀ other, next.latest other = network.latest other) ∧
      ∀ n s, network.subscriptions[n]? = some s → s.stream.IgnoresRepeats → calls n es = [] := by
  have begun : Run network [.script (.publish key value go)] [.published key value, .setOut key value]
      (network.setOut key value []) [.fanOut key value (network.subject key).listeners
        (network.subject key).listeners.length go] := .begun (sound.idle key)
  have sent := (sound.script _).run begun
  obtain ⟨es, middle, run, subjects, still, uncalled⟩ := sent.fanOut_repeated
    (fun n leaf listed => by
      have nothing : received n leaf [Event.published key value, .setOut key value] = [] := rfl
      rw [received_append, nothing, List.append_nil, sound.abreast listed, current])
    unmoved
  have queue : (middle.subject key).queue = [] := by
    rw [subject_congr subjects, subject_setOut, if_pos rfl]
    rfl
  have holds : (fun _ : σ => True) (middle.setSubject key (middle.subject key).released).memory :=
    trivial
  obtain ⟨last, ends, _, _⟩ := run_quiet (quiet (network.subject key).listeners.length) holds
  have whole := begun.trans (run.trans ((Run.finished queue).trans ends))
  rw [List.append_nil, List.append_nil] at whole
  refine ⟨_, last, whole, fun other => ?_, fun n s here ignores => ?_⟩
  · have before : network.latest other = (departures other events).getLast? :=
      sound.flowing.latest other
    have after : last.latest other = _ := ((sound.script _).run whole).flowing.latest other
    have silent : departures other es = [] := by rw [departures, sent_still still]; rfl
    rw [after, departures_append, departures_append, silent, List.append_nil]
    by_cases same : key = other
    · subst same
      simp [sent?, valuesAt, current]
    · simp [sent?, valuesAt, same, before]
  · rw [calls_append, uncalled n s here ignores]
    rfl

end Network

end Switchboard
