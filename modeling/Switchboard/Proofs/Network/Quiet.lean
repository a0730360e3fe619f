import Switchboard.Proofs.Network.Sound
import Switchboard.Proofs.Stream.Rounds

/-!
# Quiet listeners

A script is quiet if it only looks at the memory, changes it within bounds and
writes to the journal. Where all listeners are quiet, every publication and
every subscription runs to its end, and nothing sets out but what was asked
for.
-/
namespace Switchboard

variable {κ ν ρ σ : Type}

/-- A script that leaves subjects and subscriptions alone and keeps what holds of the memory. -/
inductive Script.Quiet (keeps : σ → Prop) : Script κ ν ρ σ → Prop where
  | done : Quiet keeps .done
  | record {entry : ρ} {next : Script κ ν ρ σ} (h : Quiet keeps next) :
      Quiet keeps (.record entry next)
  | change {f : σ → σ} {next : Script κ ν ρ σ} (stays : ∀ memory, keeps memory → keeps (f memory))
      (h : Quiet keeps next) : Quiet keeps (.change f next)
  | consult {next : σ → Script κ ν ρ σ} (h : ∀ memory, keeps memory → Quiet keeps (next memory)) :
      Quiet keeps (.consult next)

/-- A script that publishes a value once and is quiet apart from that. -/
inductive Script.Leads (keeps : σ → Prop) (key : κ) (value : ν) : Script κ ν ρ σ → Prop where
  | publish {next : Nat → Script κ ν ρ σ} (h : ∀ n, (next n).Quiet keeps) :
      Leads keeps key value (.publish key value next)
  | record {entry : ρ} {next : Script κ ν ρ σ} (h : Leads keeps key value next) :
      Leads keeps key value (.record entry next)
  | change {f : σ → σ} {next : Script κ ν ρ σ} (stays : ∀ memory, keeps memory → keeps (f memory))
      (h : Leads keeps key value next) : Leads keeps key value (.change f next)
  | consult {next : σ → Script κ ν ρ σ}
      (h : ∀ memory, keeps memory → Leads keeps key value (next memory)) :
      Leads keeps key value (.consult next)

theorem Script.Quiet.followedBy {keeps : σ → Prop} {script later : Script κ ν ρ σ}
    (quiet : script.Quiet keeps) (quiet' : later.Quiet keeps) :
    (script.followedBy later).Quiet keeps := by
  induction quiet with
  | done => exact quiet'
  | record _ ih => exact .record ih
  | change stays _ ih => exact .change stays ih
  | consult _ ih => exact .consult ih

theorem Script.Quiet.leads {keeps : σ → Prop} {key : κ} {value : ν} {script later : Script κ ν ρ σ}
    (quiet : script.Quiet keeps) (leads : later.Leads keeps key value) :
    (script.followedBy later).Leads keeps key value := by
  induction quiet with
  | done => exact leads
  | record _ ih => exact .record ih
  | change stays _ ih => exact .change stays ih
  | consult _ ih => exact .consult ih

/-- What a script makes of the memory, up to the first thing that concerns others. -/
def Script.outcome : Script κ ν ρ σ → σ → σ
  | .record _ next, memory => next.outcome memory
  | .change f next, memory => next.outcome (f memory)
  | .consult next, memory => (next memory).outcome memory
  | .done, memory | .publish .., memory | .subscribe .., memory | .detach .., memory => memory

/-- An event that concerns subscriptions only, and takes none of their leaves away. -/
def Event.Still : Event κ ν → Prop
  | .subscribed _ | .attached .. | .fed .. | .called .. => True
  | .published .. | .setOut .. | .detached _ => False

namespace Network

variable {keeps : σ → Prop}

/-- Networks that differ in memory and journal at most. -/
structure Alike (network next : Network κ ν ρ σ) : Prop where
  subjects : next.subjects = network.subjects
  subscriptions : next.subscriptions = network.subscriptions

/-- A network in which all listeners are quiet. -/
structure Passive (keeps : σ → Prop) (network : Network κ ν ρ σ) : Prop where
  quiet : ∀ s ∈ network.subscriptions, ∀ a, (s.listener a).Quiet keeps
  holds : keeps network.memory

theorem sent_still {es : List (Event κ ν)} (still : ∀ e ∈ es, e.Still) : Event.sent es = [] := by
  refine List.filterMap_eq_nil_iff.mpr fun e member => ?_
  cases e with
  | setOut => exact absurd (still _ member) id
  | _ => rfl

theorem still_feedEvents (network : Network κ ν ρ σ) (subscription leaf : Nat)
    (incoming : Option ν) : ∀ e ∈ network.feedEvents subscription leaf incoming, e.Still := by
  obtain ⟨calls, h⟩ := network.feedEvents_eq subscription leaf incoming
  rw [h]
  intro e member
  rcases List.mem_cons.mp member with rfl | member
  · trivial
  · obtain ⟨call, _, rfl⟩ := List.mem_map.mp member
    trivial

variable [DecidableEq κ] {network next : Network κ ν ρ σ}

/-- What a quiet script does is done to the memory. -/
theorem run_outcome {script : Script κ ν ρ σ} (quiet : script.Quiet keeps)
    (holds : keeps network.memory) :
    ∃ next, Run network [.script script] [] next [] ∧ network.Alike next ∧
      keeps next.memory ∧ next.memory = script.outcome network.memory := by
  induction quiet generalizing network with
  | done => exact ⟨network, .step rfl (.still _ _), ⟨rfl, rfl⟩, holds, rfl⟩
  | @record entry next _ ih =>
    obtain ⟨last, run, alike, kept⟩ := ih (show keeps (network.write [entry]).memory from holds)
    exact ⟨last, .step rfl run, ⟨alike.subjects, alike.subscriptions⟩, kept⟩
  | @change f next stays _ ih =>
    obtain ⟨last, run, alike, kept⟩ :=
      ih (show keeps (Network.mk network.subjects network.subscriptions network.journal
        (f network.memory)).memory from stays _ holds)
    exact ⟨last, .step rfl run, ⟨alike.subjects, alike.subscriptions⟩, kept⟩
  | consult _ ih =>
    obtain ⟨last, run, alike, kept⟩ := ih _ holds holds
    exact ⟨last, .step rfl run, alike, kept⟩

theorem run_quiet {script : Script κ ν ρ σ} (quiet : script.Quiet keeps)
    (holds : keeps network.memory) :
    ∃ next, Run network [.script script] [] next [] ∧ network.Alike next ∧
      keeps next.memory := by
  obtain ⟨next, run, alike, kept, _⟩ := run_outcome quiet holds
  exact ⟨next, run, alike, kept⟩

/-- Up to its publication, a script that publishes once is quiet. -/
theorem run_leads {key : κ} {value : ν} {script : Script κ ν ρ σ}
    (leads : script.Leads keeps key value) (holds : keeps network.memory) :
    ∃ next go, Run network [.script script] [] next [.script (.publish key value go)] ∧
      network.Alike next ∧ keeps next.memory ∧ ∀ n, (go n).Quiet keeps := by
  induction leads generalizing network with
  | @publish go quiet => exact ⟨network, go, .still _ _, ⟨rfl, rfl⟩, holds, quiet⟩
  | @record entry next _ ih =>
    obtain ⟨last, go, run, alike, kept⟩ := ih (show keeps (network.write [entry]).memory from holds)
    exact ⟨last, go, .step rfl run, ⟨alike.subjects, alike.subscriptions⟩, kept⟩
  | @change f next stays _ ih =>
    obtain ⟨last, go, run, alike, kept⟩ :=
      ih (show keeps (Network.mk network.subjects network.subscriptions network.journal
        (f network.memory)).memory from stays _ holds)
    exact ⟨last, go, .step rfl run, ⟨alike.subjects, alike.subscriptions⟩, kept⟩
  | consult _ ih =>
    obtain ⟨last, go, run, alike, kept⟩ := ih _ holds holds
    exact ⟨last, go, .step rfl run, alike, kept⟩

/-- What a subscription takes in when a value goes to a list of listeners. -/
def feedsTo (n : Nat) (value : ν) (listeners : List (Nat × Nat)) : List (Nat × Option ν) :=
  (listeners.filter (·.1 = n)).map fun listener => (listener.2, some value)

/-- The latest values of subjects depend on the entries of subjects alone. -/
theorem latest_congr (same : next.subjects = network.subjects) : next.latest = network.latest := by
  funext key
  rw [latest, subject_congr same, latest]

/-- A new listener changes no latest value. -/
theorem latest_attach (network : Network κ ν ρ σ) (key : κ) (subscription leaf : Nat) :
    (network.attach key subscription leaf).latest = network.latest := by
  funext other
  exact (network.sameTraffic_attach key subscription leaf other).2.2

section Publishing

variable {key : κ} {value later : ν} {queue : List ν} {audience : Nat}
variable {go : Nat → Script κ ν ρ σ}

theorem step_begun (idle : (network.subject key).busy = false) (rest : List (Frame κ ν ρ σ)) :
    network.step (.script (.publish key value go) :: rest) =
      (network.setOut key value [], .fanOut key value (network.subject key).listeners
        (network.subject key).listeners.length go :: rest) := by
  simp [Network.step, stepScript, idle]

theorem stepEvents_begun (idle : (network.subject key).busy = false) :
    network.stepEvents (.script (.publish key value go)) =
      [.published key value, .setOut key value] := by
  simp [stepEvents, scriptEvents, idle]

theorem step_queued (busy : (network.subject key).busy = true) (rest : List (Frame κ ν ρ σ)) :
    network.step (.script (.publish key value go) :: rest) =
      (network.setSubject key ((network.subject key).queueing value),
        .script (go (network.listenerCount key)) :: rest) := by
  simp [Network.step, stepScript, busy, Subject.queueing, listenerCount]

theorem stepEvents_queued (busy : (network.subject key).busy = true) :
    network.stepEvents (.script (.publish key value go)) = [.published key value] := by
  simp [stepEvents, scriptEvents, busy]

theorem step_resumed (waits : (network.subject key).queue = later :: queue)
    (rest : List (Frame κ ν ρ σ)) :
    network.step (.fanOut key value [] audience go :: rest) =
      (network.setOut key later queue, .fanOut key later (network.subject key).listeners
        (network.subject key).listeners.length go :: rest) := by
  simp [Network.step, waits]

theorem stepEvents_resumed (waits : (network.subject key).queue = later :: queue) :
    network.stepEvents (.fanOut key value [] audience go) = [.setOut key later] := by
  simp [stepEvents, waits]

theorem step_finished (empty : (network.subject key).queue = []) (rest : List (Frame κ ν ρ σ)) :
    network.step (.fanOut key value [] audience go :: rest) =
      (network.setSubject key (network.subject key).released, .script (go audience) :: rest) := by
  simp [Network.step, empty, Subject.released]

theorem stepEvents_finished (empty : (network.subject key).queue = []) :
    network.stepEvents (.fanOut key value [] audience go) = [] := by
  simp [stepEvents, empty]

/-- A publication sets out. -/
theorem Run.begun (idle : (network.subject key).busy = false) :
    Run network [.script (.publish key value go)] [.published key value, .setOut key value]
      (network.setOut key value []) [.fanOut key value (network.subject key).listeners
        (network.subject key).listeners.length go] := by
  rw [← stepEvents_begun idle]
  exact .single (step_begun idle [])

/-- A publication has to wait. -/
theorem Run.queued (busy : (network.subject key).busy = true) :
    Run network [.script (.publish key value go)] [.published key value]
      (network.setSubject key ((network.subject key).queueing value))
      [.script (go (network.listenerCount key))] := by
  rw [← stepEvents_queued busy]
  exact .single (step_queued busy [])

/-- A fan-out has reached everybody, and the next value sets out. -/
theorem Run.resumed (waits : (network.subject key).queue = later :: queue) :
    Run network [.fanOut key value [] audience go] [.setOut key later]
      (network.setOut key later queue) [.fanOut key later (network.subject key).listeners
        (network.subject key).listeners.length go] := by
  rw [← stepEvents_resumed waits]
  exact .single (step_resumed waits [])

/-- A fan-out has reached everybody, and no value is left in the queue. -/
theorem Run.finished (empty : (network.subject key).queue = []) :
    Run network [.fanOut key value [] audience go] []
      (network.setSubject key (network.subject key).released) [.script (go audience)] := by
  rw [← stepEvents_finished empty]
  exact .single (step_finished empty [])

end Publishing

/-- A leaf of which the subject has no value starts to listen. -/
theorem Run.attached {key : κ} {n leaf : Nat} {leaves : List (Leaf κ)} {go : Script κ ν ρ σ}
    (silent : (network.subject key).latest = none) :
    Run network [.opening n leaf (.subject key :: leaves) go] [.attached ⟨key, n, leaf⟩ none]
      (network.attach key n leaf) [.opening n (leaf + 1) leaves go] := by
  have moves : network.step [.opening n leaf (.subject key :: leaves) go] =
      (network.attach key n leaf, [.opening n (leaf + 1) leaves go]) := by
    simp [Network.step, attach, Subject.joined, silent]
  have events : network.stepEvents (.opening n leaf (.subject key :: leaves) go) =
      [.attached ⟨key, n, leaf⟩ none] := by
    simp [stepEvents, silent]
  rw [← events]
  exact .single moves

/-- A leaf of which the subject has a value starts to listen, and the value is let in. -/
theorem Run.replayed {key : κ} {value : ν} {n leaf : Nat} {leaves : List (Leaf κ)}
    {go : Script κ ν ρ σ} (current : (network.subject key).latest = some value) :
    Run network [.opening n leaf (.subject key :: leaves) go]
      (.attached ⟨key, n, leaf⟩ (some value) ::
        (network.attach key n leaf).feedEvents n leaf (some value))
      ((network.attach key n leaf).feed n leaf (some value)).1
      (((network.attach key n leaf).feed n leaf (some value)).2 ++
        [.opening n (leaf + 1) leaves go]) := by
  have moves : network.step [.opening n leaf (.subject key :: leaves) go] =
      (((network.attach key n leaf).feed n leaf (some value)).1,
        ((network.attach key n leaf).feed n leaf (some value)).2 ++
          [.opening n (leaf + 1) leaves go]) := by
    simp [Network.step, attach, Subject.joined, current]
  have events : network.stepEvents (.opening n leaf (.subject key :: leaves) go) =
      .attached ⟨key, n, leaf⟩ (some value) ::
        (network.attach key n leaf).feedEvents n leaf (some value) := by
    simp only [stepEvents, current]
    rfl
  rw [← events]
  exact .single moves

theorem detach_memory (network : Network κ ν ρ σ) (registrations : List (Registration κ)) :
    (network.detach registrations).memory = network.memory := by
  induction registrations generalizing network with
  | nil => rfl
  | cons registration rest ih => exact ih (network.detachOne registration)

theorem run_detach (network : Network κ ν ρ σ) (registrations : List (Registration κ)) :
    Run network [.script (.detach registrations .done)] (registrations.map .detached)
      (network.detach registrations) [] := by
  have run : Run network [.script (.detach registrations .done)]
      (registrations.map .detached ++ ([] ++ [])) (network.detach registrations) [] :=
    .step rfl (.step rfl (.still _ _))
  rwa [List.append_nil, List.append_nil] at run

namespace Passive

omit [DecidableEq κ] in
theorem alike (passive : Passive keeps network) (alike : network.Alike next)
    (holds : keeps next.memory) : Passive keeps next :=
  ⟨by rw [alike.subscriptions]; exact passive.quiet, holds⟩

omit [DecidableEq κ] in
/-- A value that is let in is taken care of at once. -/
theorem feed (passive : Passive keeps network) (subscription leaf : Nat) (incoming : Option ν) :
    Passive keeps (network.feed subscription leaf incoming).1 ∧
      ∀ frame ∈ (network.feed subscription leaf incoming).2,
        ∃ script, frame = .script script ∧ script.Quiet keeps := by
  obtain ⟨quiet, woken⟩ := network.feed_listeners subscription leaf incoming passive.quiet
  refine ⟨⟨quiet, ?_⟩, woken⟩
  rw [feed_memory]
  exact passive.holds

theorem run_woken (passive : Passive keeps network) {woken : List (Frame κ ν ρ σ)}
    (quiet : ∀ frame ∈ woken, ∃ script, frame = .script script ∧ script.Quiet keeps) :
    ∃ next, Run network woken [] next [] ∧ network.Alike next ∧ Passive keeps next := by
  induction woken generalizing network with
  | nil => exact ⟨network, .still _ _, ⟨rfl, rfl⟩, passive⟩
  | cons frame woken ih =>
    obtain ⟨script, rfl, here⟩ := quiet frame List.mem_cons_self
    obtain ⟨middle, first, alike, kept⟩ := run_quiet here passive.holds
    obtain ⟨last, second, alike', done⟩ :=
      ih (passive.alike alike kept) fun f member => quiet f (List.mem_cons_of_mem _ member)
    exact ⟨last, (first.above woken).trans second,
      ⟨alike'.subjects.trans alike.subjects, alike'.subscriptions.trans alike.subscriptions⟩, done⟩

/-- A fan-out reaches everybody on its list. -/
theorem fanOut (passive : Passive keeps network) (key : κ) (value : ν)
    (waiting : List (Nat × Nat)) (audience : Nat) (go : Nat → Script κ ν ρ σ) :
    ∃ es next, Run network [.fanOut key value waiting audience go] es next
        [.fanOut key value [] audience go] ∧
      (∀ e ∈ es, e.Still) ∧ next.subjects = network.subjects ∧
      next.subscriptions.length = network.subscriptions.length ∧ Passive keeps next ∧
      ∀ n, Event.feeds n es = feedsTo n value waiting := by
  induction waiting generalizing network with
  | nil => exact ⟨[], network, .still _ _, nofun, rfl, rfl, passive, fun _ => rfl⟩
  | cons listener waiting ih =>
    obtain ⟨n, l⟩ := listener
    obtain ⟨fed, quiet⟩ := passive.feed n l (some value)
    obtain ⟨middle, first, alike, passive'⟩ := fed.run_woken quiet
    obtain ⟨es, last, second, still, subjects, length, done, fed_to⟩ := ih passive'
    refine ⟨network.feedEvents n l (some value) ++ es, last, ?_, ?_, ?_, ?_, done, ?_⟩
    · exact .step rfl ((first.above _).trans second)
    · rw [List.forall_mem_append]
      exact ⟨network.still_feedEvents n l _, still⟩
    · rw [subjects, alike.subjects, feed_subjects]
    · rw [length, alike.subscriptions, feed_length]
    · intro m
      rw [Event.feeds_append, Event.feeds_feedEvents, fed_to m, feedsTo, feedsTo]
      by_cases here : n = m
      · rw [if_pos here, List.filter_cons_of_pos (by simpa using here), List.map_cons]
        rfl
      · rw [if_neg here, List.filter_cons_of_neg (by simpa using here)]
        rfl

/-- A publication runs to its end. -/
theorem publish (passive : Passive keeps network) {key : κ} (value : ν)
    (go : Nat → Script κ ν ρ σ) (idle : (network.subject key).busy = false)
    (quiet : ∀ n, (go n).Quiet keeps) :
    ∃ es next, Run network [.script (.publish key value go)]
        (.published key value :: .setOut key value :: es) next [] ∧
      (∀ e ∈ es, e.Still) ∧ next.subscriptions.length = network.subscriptions.length ∧
      Passive keeps next ∧
      ∀ n, Event.feeds n es = feedsTo n value (network.subject key).listeners := by
  have sending : Passive keeps (network.setOut key value []) := ⟨passive.quiet, passive.holds⟩
  obtain ⟨es, middle, run, still, subjects, length, passive', fed_to⟩ :=
    sending.fanOut key value (network.subject key).listeners
      (network.subject key).listeners.length go
  have queue : (middle.subject key).queue = [] := by
    rw [subject_congr subjects, subject_setOut, if_pos rfl]
    rfl
  have released : Passive keeps (middle.setSubject key (middle.subject key).released) :=
    ⟨passive'.quiet, passive'.holds⟩
  obtain ⟨last, ends, alike, kept⟩ := run_quiet (quiet _) released.holds
  refine ⟨es, last, ?_, still, ?_, released.alike alike kept, fed_to⟩
  · have whole := (Run.begun idle).trans (run.trans ((Run.finished queue).trans ends))
    simpa using whole
  · rw [alike.subscriptions]
    exact length

/-- Opening a subscription runs to its end, and nothing else takes anything in. -/
theorem opening (passive : Passive keeps network) (subscription leaf : Nat)
    (leaves : List (Leaf κ)) (go : Script κ ν ρ σ) :
    ∃ es next, Run network [.opening subscription leaf leaves go] es next [.script go] ∧
      (∀ e ∈ es, e.Still) ∧ next.subscriptions.length = network.subscriptions.length ∧
      Passive keeps next ∧ ∀ n, Event.feeds n es =
        if subscription = n then Stream.entering (Stream.opening network.latest) leaf leaves
        else [] := by
  induction leaves generalizing network leaf with
  | nil =>
    refine ⟨_, network, .step rfl (.still _ _), nofun, rfl, passive, fun n => ?_⟩
    split <;> rfl
  | cons first leaves ih =>
    cases first with
    | own =>
      obtain ⟨fed, quiet⟩ := passive.feed subscription leaf none
      obtain ⟨middle, first, alike, passive'⟩ := fed.run_woken quiet
      obtain ⟨es, last, second, still, length, done, taken⟩ := ih passive' (leaf + 1)
      have latest : middle.latest = network.latest :=
        latest_congr (alike.subjects.trans (network.feed_subjects subscription leaf none))
      refine ⟨network.feedEvents subscription leaf none ++ es, last,
        .step rfl ((first.above _).trans second), ?_, ?_, done, fun n => ?_⟩
      · rw [List.forall_mem_append]
        exact ⟨network.still_feedEvents subscription leaf _, still⟩
      · rw [length, alike.subscriptions, feed_length]
      · rw [Event.feeds_append, Event.feeds_feedEvents, taken, latest]
        split <;> rfl
    | subject key =>
      have attached : Passive keeps (network.attach key subscription leaf) :=
        ⟨passive.quiet, passive.holds⟩
      have latest := network.latest_attach key subscription leaf
      cases has : (network.subject key).latest with
      | none =>
        obtain ⟨es, last, run, still, length, done, taken⟩ := ih attached (leaf + 1)
        refine ⟨_, last, (Run.attached has).trans run, List.forall_mem_cons.mpr ⟨trivial, still⟩,
          length, done, fun n => ?_⟩
        have nothing : Stream.opening network.latest (.subject key) = none := by
          rw [Stream.opening, Network.latest, has]
          rfl
        rw [Stream.entering, nothing, ← latest]
        exact taken n
      | some value =>
        obtain ⟨fed, quiet⟩ := attached.feed subscription leaf (some value)
        obtain ⟨middle, first, alike, passive'⟩ := fed.run_woken quiet
        obtain ⟨es, last, second, still, length, done, taken⟩ := ih passive' (leaf + 1)
        have latest' : middle.latest = network.latest :=
          (latest_congr (alike.subjects.trans (feed_subjects _ subscription leaf _))).trans latest
        refine ⟨_, last, (Run.replayed has).trans ((first.above _).trans second), ?_, ?_, done,
          fun n => ?_⟩
        · rw [List.cons_append, List.forall_mem_cons, List.forall_mem_append]
          exact ⟨trivial, still_feedEvents _ subscription leaf _, still⟩
        · rw [length, alike.subscriptions, feed_length]
          rfl
        · have given : Stream.opening network.latest (.subject key) = some (some value) := by
            rw [Stream.opening, Network.latest, has]
            rfl
          have taken_here : Event.feeds n (.attached ⟨key, subscription, leaf⟩ (some value) ::
              (network.attach key subscription leaf).feedEvents subscription leaf (some value)) =
              if subscription = n then [(leaf, some value)] else [] :=
            Event.feeds_feedEvents _ subscription leaf (some value) n
          rw [Event.feeds_append, taken_here, List.nil_append, taken, latest', Stream.entering, given]
          split <;> rfl

/-- A subscription runs to its end. -/
theorem subscribe (passive : Passive keeps network) {α : Type} (stream : Stream κ ν ρ α)
    {listener : α → Script κ ν ρ σ} (quiet : ∀ a, (listener a).Quiet keeps)
    {go : Handle κ → Script κ ν ρ σ} (quiet' : ∀ handle, (go handle).Quiet keeps) :
    ∃ es next, Run network [.script (.subscribe stream listener go)]
        (.subscribed network.subscriptions.length :: es) next [] ∧
      (∀ e ∈ es, e.Still) ∧ Passive keeps next ∧
      next.subscriptions.length = network.subscriptions.length + 1 ∧
      (∃ state, next.subscriptions[network.subscriptions.length]? =
        some ⟨stream, state, listener⟩) ∧
      ∀ n, Event.feeds n es = if network.subscriptions.length = n then
        Stream.entering (Stream.opening network.latest) 0 stream.leaves else [] := by
  have added : Passive keeps { network with
      subscriptions := network.subscriptions ++ [⟨stream, stream.initial, listener⟩] } := by
    refine ⟨fun s member => ?_, passive.holds⟩
    rcases List.mem_append.mp member with member | member
    · exact passive.quiet s member
    · obtain rfl := List.mem_singleton.mp member
      exact quiet
  obtain ⟨es, middle, run, still, length, passive', taken⟩ :=
    added.opening network.subscriptions.length 0 stream.leaves
      (go (stream.handle network.subscriptions.length))
  obtain ⟨last, ends, alike, kept⟩ := run_quiet (quiet' _) passive'.holds
  have joined := run.trans ends
  rw [List.append_nil] at joined
  refine ⟨es, last, .step rfl joined, still, passive'.alike alike kept, ?_, ?_, taken⟩
  · rw [alike.subscriptions, length, List.length_append, List.length_singleton]
  exact joined.keeps network.subscriptions.length ⟨stream, stream.initial, listener⟩ (by simp)

end Passive

end Network

end Switchboard
