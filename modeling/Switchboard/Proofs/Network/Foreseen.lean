import Switchboard.Proofs.Network.Tame

/-!
# What can be foreseen

A listener may change the memory and put entries into the journal before it
publishes anything, and nothing that is looked at afterwards. Then whatever
else is set off by what it publishes finds its work done. Of a script on top of
the stack it can be foreseen what will have come of it by the time it
publishes; the scripts below have nothing left to do that is looked at. So what
is foreseen changes when a listener is called, by what that listener does, and
with nothing else that happens in a run.

What is looked at is a view of the memory, and those entries of the journal
that are read.
-/
namespace Switchboard

variable {κ ν ρ σ τ δ : Type}

/-- A script that changes nothing that is looked at. -/
inductive Script.Plain (view : σ → τ) (read : ρ → Option δ) : Script κ ν ρ σ → Prop where
  | done : Plain view read .done
  | record {entry : ρ} {next : Script κ ν ρ σ} (unread : read entry = none)
      (h : Plain view read next) : Plain view read (.record entry next)
  | change {f : σ → σ} {next : Script κ ν ρ σ} (same : ∀ memory, view (f memory) = view memory)
      (h : Plain view read next) : Plain view read (.change f next)
  | consult {next : σ → Script κ ν ρ σ} (h : ∀ memory, Plain view read (next memory)) :
      Plain view read (.consult next)
  | publish {key : κ} {value : ν} {next : Nat → Script κ ν ρ σ}
      (h : ∀ n, Plain view read (next n)) : Plain view read (.publish key value next)

/-- A script that changes nothing that is looked at from its first publication on. -/
inductive Script.Brisk (view : σ → τ) (read : ρ → Option δ) : Script κ ν ρ σ → Prop where
  | done : Brisk view read .done
  | record {entry : ρ} {next : Script κ ν ρ σ} (h : Brisk view read next) :
      Brisk view read (.record entry next)
  | change {f : σ → σ} {next : Script κ ν ρ σ} (h : Brisk view read next) :
      Brisk view read (.change f next)
  | consult {next : σ → Script κ ν ρ σ} (h : ∀ memory, Brisk view read (next memory)) :
      Brisk view read (.consult next)
  | publish {key : κ} {value : ν} {next : Nat → Script κ ν ρ σ}
      (h : ∀ n, (next n).Plain view read) : Brisk view read (.publish key value next)

namespace Script

/-- What a script puts down, of the entries that are read, before it publishes or subscribes. -/
def told (read : ρ → Option δ) : Script κ ν ρ σ → σ → List δ
  | .record entry next, memory => (read entry).toList ++ next.told read memory
  | .change f next, memory => next.told read (f memory)
  | .consult next, memory => (next memory).told read memory
  | .done, _ | .publish .., _ | .subscribe .., _ | .detach .., _ => []

variable {view : σ → τ} {read : ρ → Option δ} {script later : Script κ ν ρ σ}

theorem Plain.brisk (plain : script.Plain view read) : script.Brisk view read := by
  induction plain with
  | done => exact .done
  | record _ _ ih => exact .record ih
  | change _ _ ih => exact .change ih
  | consult _ ih => exact .consult ih
  | publish h _ => exact .publish h

theorem Plain.outcome (plain : script.Plain view read) (memory : σ) :
    view (script.outcome memory) = view memory := by
  induction plain generalizing memory with
  | done | publish => rfl
  | record _ _ ih => exact ih memory
  | change same _ ih => exact (ih _).trans (same memory)
  | consult _ ih => exact ih memory memory

theorem Plain.told (plain : script.Plain view read) (memory : σ) : script.told read memory = [] := by
  induction plain generalizing memory with
  | done | publish => rfl
  | record unread _ ih => rw [Script.told, unread, ih]; rfl
  | change _ _ ih => exact ih _
  | consult _ ih => exact ih memory memory

theorem Plain.tame (plain : script.Plain view read) : script.Tame fun _ => True := by
  induction plain with
  | done => exact .done
  | record _ _ ih => exact .record ih
  | change _ _ ih => exact .change (fun _ _ => trivial) ih
  | consult _ ih => exact .consult fun memory _ => ih memory
  | publish _ ih => exact .publish ih

theorem Brisk.tame (brisk : script.Brisk view read) : script.Tame fun _ => True := by
  induction brisk with
  | done => exact .done
  | record _ ih => exact .record ih
  | change _ ih => exact .change (fun _ _ => trivial) ih
  | consult _ ih => exact .consult fun memory _ => ih memory
  | publish h => exact .publish fun n => (h n).tame

end Script

/-- A stream that remarks nothing that is read. -/
def Stream.Discreet (read : ρ → Option δ) : {α : Type} → Stream κ ν ρ α → Prop
  | _, .subject _ => True
  | _, .constant _ => True
  | _, .filterMap _ source => source.Discreet read
  | _, .tap remark source => (∀ a, read (remark a) = none) ∧ source.Discreet read
  | _, .renewed _ source => source.Discreet read
  | _, .property _ source => source.Discreet read
  | _, .combine _ left right => left.Discreet read ∧ right.Discreet read

theorem Stream.Discreet.push {read : ρ → Option δ} {α : Type} {stream : Stream κ ν ρ α}
    (discreet : stream.Discreet read) {state : stream.State} {leaf : Nat} {incoming : Option ν}
    {pushed : Pushed stream.State α ρ} (pushes : stream.push state leaf incoming = .ok pushed) :
    ∀ remark ∈ pushed.remarks, read remark = none := by
  induction stream generalizing leaf with
  | subject key =>
    cases leaf with
    | zero =>
      obtain rfl := Except.ok.inj pushes
      exact List.forall_mem_nil _
    | succ leaf => cases pushes
  | constant value =>
    cases leaf with
    | zero =>
      obtain rfl := Except.ok.inj pushes
      exact List.forall_mem_nil _
    | succ leaf => cases pushes
  | filterMap f source ih =>
    change source.State at state
    rw [push_filterMap] at pushes
    split at pushes
    · rename_i inner
      obtain rfl := Except.ok.inj pushes
      exact ih discreet inner
    · cases pushes
  | tap remark source ih =>
    change source.State at state
    rw [push_tap] at pushes
    split at pushes
    · rename_i value _ inner
      obtain rfl := Except.ok.inj pushes
      exact List.forall_mem_append.mpr
        ⟨ih discreet.2 inner, List.forall_mem_singleton.mpr (discreet.1 value)⟩
    · rename_i inner
      obtain rfl := Except.ok.inj pushes
      exact ih discreet.2 inner
    · cases pushes
  | renewed same source ih =>
    change Option _ × source.State at state
    rw [push_renewed] at pushes
    split at pushes
    · rename_i inner
      split at pushes
      · obtain rfl := Except.ok.inj pushes
        exact ih discreet inner
      · obtain rfl := Except.ok.inj pushes
        exact ih discreet inner
    · rename_i inner
      obtain rfl := Except.ok.inj pushes
      exact ih discreet inner
    · cases pushes
  | property fallback source ih =>
    change Bool × source.State at state
    rw [push_property] at pushes
    split at pushes
    · rename_i inner
      obtain rfl := Except.ok.inj pushes
      exact ih discreet inner
    · obtain rfl := Except.ok.inj pushes
      exact List.forall_mem_nil _
    · cases pushes
  | combine f left right ih ih' =>
    change (Option _ × Option _) × left.State × right.State at state
    rw [push_combine] at pushes
    split at pushes
    · rename_i inner
      obtain rfl := Except.ok.inj pushes
      exact ih discreet.1 inner
    · rename_i inner
      obtain rfl := Except.ok.inj pushes
      exact ih discreet.1 inner
    · split at pushes
      · rename_i inner
        obtain rfl := Except.ok.inj pushes
        exact ih' discreet.2 inner
      · rename_i inner
        obtain rfl := Except.ok.inj pushes
        exact ih' discreet.2 inner
      · cases pushes

/-- What a frame on top of a stack still has to do: the rest of a script, or nothing looked at. -/
def Frame.Brisk (view : σ → τ) (read : ρ → Option δ) : Frame κ ν ρ σ → Prop
  | .script now => now.Brisk view read
  | .fanOut _ _ _ _ next => ∀ n, (next n).Plain view read
  | .opening _ _ _ next => next.Plain view read

/-- A frame below: it waits for what is above it, and then does nothing that is looked at. -/
def Frame.Waits (view : σ → τ) (read : ρ → Option δ) : Frame κ ν ρ σ → Prop
  | .script _ => False
  | .fanOut _ _ _ _ next => ∀ n, (next n).Plain view read
  | .opening _ _ _ next => next.Plain view read

theorem Frame.Waits.brisk {view : σ → τ} {read : ρ → Option δ} {frame : Frame κ ν ρ σ}
    (waits : frame.Waits view read) : frame.Brisk view read := by
  cases frame with
  | script => exact nomatch waits
  | fanOut => exact waits
  | opening => exact waits

namespace Network

/-- What is looked at. -/
def seen (view : σ → τ) (read : ρ → Option δ) (network : Network κ ν ρ σ) : τ × List δ :=
  (view network.memory, network.journal.reverse.filterMap read)

/-- What will be seen when the script on top of the stack publishes or has come to its end. -/
def foreseen (view : σ → τ) (read : ρ → Option δ) (network : Network κ ν ρ σ) :
    List (Frame κ ν ρ σ) → τ × List δ
  | .script script :: _ =>
    (view (script.outcome network.memory),
      network.journal.reverse.filterMap read ++ script.told read network.memory)
  | _ => network.seen view read

/-- The network with one more subscription, none of whose leaves has been opened. -/
def enlisted (network : Network κ ν ρ σ) {α : Type} (stream : Stream κ ν ρ α)
    (listener : α → Script κ ν ρ σ) : Network κ ν ρ σ :=
  { network with
    subscriptions := network.subscriptions ++ [⟨stream, stream.initial, listener⟩] }

theorem getElem?_enlisted {network : Network κ ν ρ σ} {α : Type} {stream : Stream κ ν ρ α}
    {listener : α → Script κ ν ρ σ} {n : Nat} {s : Subscription κ ν ρ σ}
    (there : network.subscriptions[n]? = some s) :
    (network.enlisted stream listener).subscriptions[n]? = some s := by
  rw [enlisted, List.getElem?_append_left (List.getElem?_eq_some_iff.mp there).1]
  exact there

theorem enlisted_cases {network : Network κ ν ρ σ} {α : Type} {stream : Stream κ ν ρ α}
    {listener : α → Script κ ν ρ σ} {n : Nat} {s : Subscription κ ν ρ σ}
    (there : (network.enlisted stream listener).subscriptions[n]? = some s) :
    network.subscriptions[n]? = some s ∨
      n = network.subscriptions.length ∧ s = ⟨stream, stream.initial, listener⟩ :=
  getElem?_snoc_cases there

theorem run_enlisted [DecidableEq κ] (network : Network κ ν ρ σ) {α : Type}
    (stream : Stream κ ν ρ α) (listener : α → Script κ ν ρ σ) (go : Handle κ → Script κ ν ρ σ) :
    Run network [.script (.subscribe stream listener go)]
      [.subscribed network.subscriptions.length] (network.enlisted stream listener)
      [.opening network.subscriptions.length 0 stream.leaves
        (go (stream.handle network.subscriptions.length))] := by
  have here : network.step [.script (.subscribe stream listener go)] =
      (network.enlisted stream listener, [.opening network.subscriptions.length 0 stream.leaves
        (go (stream.handle network.subscriptions.length))]) := rfl
  have run := Run.step here (.still _ _)
  rwa [List.append_nil] at run

/-- A subscription that has come to its end began with a place in the network. -/
theorem opening_of_run [DecidableEq κ] {network last : Network κ ν ρ σ} {α : Type}
    {stream : Stream κ ν ρ α} {listener : α → Script κ ν ρ σ} {go : Handle κ → Script κ ν ρ σ}
    {es : List (Event κ ν)}
    (run : Run network [.script (.subscribe stream listener go)] es last []) :
    ∃ later, es = .subscribed network.subscriptions.length :: later ∧
      Run (network.enlisted stream listener) [.opening network.subscriptions.length 0 stream.leaves
        (go (stream.handle network.subscriptions.length))] later last [] := by
  cases run with
  | step here later =>
    obtain ⟨rfl, rfl⟩ := Prod.mk.inj here
    exact ⟨_, rfl, later⟩

/-- A network at work in which nothing that is looked at is done after a publication. -/
structure Orderly (view : σ → τ) (read : ρ → Option δ) (network : Network κ ν ρ σ)
    (stack : List (Frame κ ν ρ σ)) : Prop where
  listeners : ∀ s ∈ network.subscriptions, ∀ a, (s.listener a).Brisk view read
  streams : ∀ s ∈ network.subscriptions, s.stream.Discreet read
  top : ∀ frame ∈ stack.head?, frame.Brisk view read
  below : ∀ frame ∈ stack.tail, frame.Waits view read

/--
What every event keeps: those that are no calls change nothing that is looked at, and a call does
what the listener does.
-/
structure Upholds (view : σ → τ) (read : ρ → Option δ)
    (Holds : List (Event κ ν) → τ × List δ → Prop) (network : Network κ ν ρ σ) : Prop where
  other : ∀ {es e now}, (∀ n value, e ≠ .called n value) → Holds es now → Holds (es ++ [e]) now
  call : ∀ {es n} {s : Subscription κ ν ρ σ} {a : s.α} {memory told},
    network.subscriptions[n]? = some s → Holds es (view memory, told) →
      Holds (es ++ [.called n ⟨s.α, a⟩])
        (view ((s.listener a).outcome memory), told ++ (s.listener a).told read memory)

variable {view : σ → τ} {read : ρ → Option δ} {Holds : List (Event κ ν) → τ × List δ → Prop}
variable {network next last : Network κ ν ρ σ} {stack rest final : List (Frame κ ν ρ σ)}
variable {frame : Frame κ ν ρ σ} {events es : List (Event κ ν)}

theorem foreseen_of_waits (waits : ∀ frame ∈ stack, frame.Waits view read) :
    network.foreseen view read stack = network.seen view read := by
  cases stack with
  | nil => rfl
  | cons frame rest =>
    cases frame with
    | script => exact nomatch waits _ List.mem_cons_self
    | fanOut => rfl
    | opening => rfl

theorem foreseen_plain {script : Script κ ν ρ σ} (plain : script.Plain view read) :
    network.foreseen view read (.script script :: rest) = network.seen view read := by
  rw [foreseen, plain.outcome, plain.told, List.append_nil, seen]

namespace Upholds

theorem others (upholds : Upholds view read Holds network) {now : τ × List δ}
    (holds : Holds events now) (calm : ∀ e ∈ es, ∀ n value, e ≠ .called n value) :
    Holds (events ++ es) now := by
  induction es generalizing events with
  | nil => rwa [List.append_nil]
  | cons e es ih =>
    obtain ⟨here, later⟩ := List.forall_mem_cons.mp calm
    rw [← List.singleton_append, ← List.append_assoc]
    exact ih (upholds.other here holds) later

/-- The listeners are the same after a step that attaches no new subscription. -/
theorem keeps (upholds : Upholds view read Holds network) (keeps : network.Keeps next)
    (length : next.subscriptions.length = network.subscriptions.length) :
    Upholds view read Holds next where
  other := upholds.other
  call {es n s a memory told} there := by
    have small : n < network.subscriptions.length := by
      rw [← length]
      exact (List.getElem?_eq_some_iff.mp there).1
    obtain ⟨old, here⟩ : ∃ old, network.subscriptions[n]? = some old :=
      ⟨_, List.getElem?_eq_getElem small⟩
    obtain ⟨state, there'⟩ := keeps n old here
    obtain rfl := Option.some.inj (there.symm.trans there')
    exact upholds.call (s := old) here

end Upholds

namespace Orderly

theorem tame (orderly : Orderly view read network stack) : Tame (fun _ => True) network stack := by
  refine ⟨fun s member a => (orderly.listeners s member a).tame, fun frame member => ?_, trivial⟩
  have brisk : frame.Brisk view read := by
    cases stack with
    | nil => cases member
    | cons first rest =>
      rcases List.mem_cons.mp member with rfl | member
      · exact orderly.top _ rfl
      · exact (orderly.below frame member).brisk
  cases frame with
  | script script => exact Script.Brisk.tame brisk
  | fanOut => exact fun n => (brisk n).tame
  | opening => exact Script.Plain.tame brisk

/-- At rest, order is a matter of the subscriptions. -/
theorem alike (orderly : Orderly view read network [])
    (subscriptions : next.subscriptions = network.subscriptions) :
    Orderly view read next [] where
  listeners := by rw [subscriptions]; exact orderly.listeners
  streams := by rw [subscriptions]; exact orderly.streams
  top := nofun
  below := nofun

theorem begins (orderly : Orderly view read network []) {script : Script κ ν ρ σ}
    (brisk : script.Brisk view read) : Orderly view read network [.script script] where
  listeners := orderly.listeners
  streams := orderly.streams
  top := by rintro _ ⟨⟩; exact brisk
  below := nofun

/-- Someone joins who has done what is looked at before anything is published. -/
theorem enlist (orderly : Orderly view read network []) {α : Type} {stream : Stream κ ν ρ α}
    {listener : α → Script κ ν ρ σ} (brisk : ∀ a, (listener a).Brisk view read)
    (discreet : stream.Discreet read) {go : Script κ ν ρ σ} (plain : go.Plain view read)
    (n leaf : Nat) (leaves : List (Leaf κ)) :
    Orderly view read (network.enlisted stream listener) [.opening n leaf leaves go] where
  listeners := List.forall_mem_append.mpr
    ⟨orderly.listeners, List.forall_mem_singleton.mpr brisk⟩
  streams := List.forall_mem_append.mpr
    ⟨orderly.streams, List.forall_mem_singleton.mpr discreet⟩
  top := by rintro _ ⟨⟩; exact plain
  below := nofun

/-- Another frame on top, or in place of the one there. -/
theorem put (orderly : Orderly view read network (frame :: rest))
    {frame' : Frame κ ν ρ σ} (brisk : frame'.Brisk view read)
    (subscriptions : next.subscriptions = network.subscriptions) :
    Orderly view read next (frame' :: rest) := by
  refine ⟨?_, ?_, ?_, orderly.below⟩
  · rw [subscriptions]
    exact orderly.listeners
  · rw [subscriptions]
    exact orderly.streams
  · rintro _ ⟨⟩
    exact brisk

/-- A feed adds nothing to the journal that is read. -/
theorem journal_feed (orderly : Orderly view read network stack) (n leaf : Nat)
    (incoming : Option ν) :
    (network.feed n leaf incoming).1.journal.filterMap read = network.journal.filterMap read := by
  unfold feed
  split
  · rfl
  · rename_i stream state listener found
    split
    · rfl
    · rename_i pushes
      have discreet := orderly.streams _ (List.mem_of_getElem? found)
      have unread := List.filterMap_eq_nil_iff.mpr (discreet.push pushes)
      simp [List.filterMap_reverse, unread]

/-- What is seen above a frame that waits, when a value has been let in somewhere. -/
theorem feed (orderly : Orderly view read network stack) (waits : ∀ frame ∈ stack, frame.Waits view read)
    (upholds : Upholds view read Holds network) (n leaf : Nat) (incoming : Option ν)
    (holds : Holds events (network.seen view read)) :
    Orderly view read (network.feed n leaf incoming).1 ((network.feed n leaf incoming).2 ++ stack) ∧
      Holds (events ++ network.feedEvents n leaf incoming)
        ((network.feed n leaf incoming).1.foreseen view read
          ((network.feed n leaf incoming).2 ++ stack)) := by
  have same : (network.feed n leaf incoming).1.seen view read = network.seen view read := by
    rw [seen, seen, feed_memory, List.filterMap_reverse, List.filterMap_reverse,
      orderly.journal_feed]
  have listeners := (network.feed_listeners n leaf incoming orderly.listeners).1
  have streams : ∀ s ∈ (network.feed n leaf incoming).1.subscriptions, s.stream.Discreet read := by
    intro s member
    obtain ⟨m, small, rfl⟩ := List.mem_iff_getElem.mp member
    rw [feed_length] at small
    obtain ⟨state, there⟩ := network.feed_stream n leaf incoming m _ (List.getElem?_eq_getElem small)
    obtain ⟨_, there⟩ := List.getElem?_eq_some_iff.mp there
    rw [there]
    exact orderly.streams network.subscriptions[m] (List.getElem_mem small)
  have waiting : ∀ frame ∈ stack.head?, frame.Brisk view read := fun frame member =>
    (waits frame (List.mem_of_mem_head? member)).brisk
  rcases network.feed_cases n leaf incoming with ⟨nobody, fed⟩ | ⟨s, a, there, woken, fed⟩
  · rw [nobody, fed, List.nil_append]
    refine ⟨⟨listeners, streams, waiting, orderly.below⟩, ?_⟩
    rw [foreseen_of_waits waits, same]
    exact upholds.other (by simp) holds
  · rw [woken, fed]
    have brisk := orderly.listeners s (List.mem_of_getElem? there) a
    refine ⟨⟨listeners, streams, ?_, waits⟩, ?_⟩
    · rintro _ ⟨⟩
      exact brisk
    · have called := upholds.call (s := s) (a := a) there
        (upholds.other (e := .fed n leaf incoming) (by simp) holds)
      rw [List.append_assoc] at called
      rw [List.singleton_append, foreseen, feed_memory, List.filterMap_reverse, orderly.journal_feed,
        ← List.filterMap_reverse]
      exact called

variable [DecidableEq κ]

omit [DecidableEq κ] in
/-- A frame that waits instead of the one on top. -/
theorem await (orderly : Orderly view read network (frame :: rest))
    (subscriptions : next.subscriptions = network.subscriptions) {frame' : Frame κ ν ρ σ}
    (waits : frame'.Waits view read) :
    Orderly view read next (frame' :: rest) ∧ ∀ f ∈ frame' :: rest, f.Waits view read :=
  ⟨orderly.put waits.brisk subscriptions, List.forall_mem_cons.mpr ⟨waits, orderly.below⟩⟩

/-- A script that has done its part when it publishes goes one step on. -/
theorem step_script {script : Script κ ν ρ σ}
    (orderly : Orderly view read network (.script script :: rest))
    (upholds : Upholds view read Holds network)
    (moves : network.step (.script script :: rest) = (next, stack))
    (holds : Holds events (network.foreseen view read (.script script :: rest))) :
    Orderly view read next stack ∧
      Holds (events ++ network.stepEvents (.script script)) (next.foreseen view read stack) := by
  have brisk : script.Brisk view read := orderly.top (.script script) rfl
  have below : ∀ f ∈ rest, f.Waits view read := orderly.below
  have silent (now : τ × List δ) (h : Holds events now) : Holds (events ++ []) now := by
    rwa [List.append_nil]
  cases brisk with
  | done =>
    obtain ⟨rfl, rfl⟩ := Prod.mk.inj moves
    have ended : network.foreseen view read (.script .done :: rest) = network.seen view read :=
      foreseen_plain .done
    rw [ended] at holds
    refine ⟨⟨orderly.listeners, orderly.streams, fun f member => ?_, fun f member => ?_⟩, ?_⟩
    · exact (below f (List.mem_of_mem_head? member)).brisk
    · exact below f (List.mem_of_mem_tail member)
    · rw [foreseen_of_waits below]
      exact silent _ holds
  | @record entry go h =>
    obtain ⟨rfl, rfl⟩ := Prod.mk.inj moves
    refine ⟨orderly.put (show Frame.Brisk view read (.script go) from h) rfl, ?_⟩
    have same : (network.write [entry]).foreseen view read (.script go :: rest) =
        network.foreseen view read (.script (.record entry go) :: rest) := by
      simp only [foreseen, write, Script.outcome, Script.told, List.reverse_append,
        List.reverse_singleton, List.filterMap_append, List.append_assoc]
      cases told : read entry <;> simp [told]
    rw [same]
    exact silent _ holds
  | @change f go h =>
    obtain ⟨rfl, rfl⟩ := Prod.mk.inj moves
    exact ⟨orderly.put (show Frame.Brisk view read (.script go) from h) rfl, silent _ holds⟩
  | @consult go h =>
    obtain ⟨rfl, rfl⟩ := Prod.mk.inj moves
    exact ⟨orderly.put (show Frame.Brisk view read (.script (go _)) from h _) rfl,
      silent _ holds⟩
  | @publish key value go h =>
    have begins : network.foreseen view read (.script (.publish key value go) :: rest) =
        network.seen view read := foreseen_plain (.publish h)
    rw [begins] at holds
    have calm : ∀ e ∈ network.stepEvents (.script (.publish key value go)), ∀ n v,
        e ≠ .called n v := by
      simp only [stepEvents, scriptEvents]
      split <;> simp
    simp only [Network.step, stepScript] at moves
    split at moves
    · obtain ⟨rfl, rfl⟩ := Prod.mk.inj moves
      have plain := h (network.subject key).listeners.length
      refine ⟨orderly.put (show Frame.Brisk view read (.script _) from plain.brisk) rfl, ?_⟩
      rw [foreseen_plain plain]
      exact upholds.others holds calm
    · obtain ⟨rfl, rfl⟩ := Prod.mk.inj moves
      have waits : Frame.Waits view read (.fanOut key value (network.subject key).listeners
        (network.subject key).listeners.length go) := h
      exact ⟨orderly.put waits.brisk rfl, upholds.others holds calm⟩

/-- A value goes to one listener more, or the next one is set out, or all is done. -/
theorem step_fanOut {key : κ} {value : ν} {waiting : List (Nat × Nat)} {audience : Nat}
    {go : Nat → Script κ ν ρ σ}
    (orderly : Orderly view read network (.fanOut key value waiting audience go :: rest))
    (upholds : Upholds view read Holds network)
    (moves : network.step (.fanOut key value waiting audience go :: rest) = (next, stack))
    (holds : Holds events (network.seen view read)) :
    Orderly view read next stack ∧
      Holds (events ++ network.stepEvents (.fanOut key value waiting audience go))
        (next.foreseen view read stack) := by
  have goes : ∀ n, (go n).Plain view read :=
    orderly.top (.fanOut key value waiting audience go) rfl
  cases waiting with
  | cons listener waiting =>
    obtain ⟨rfl, rfl⟩ := Prod.mk.inj moves
    have waits : Frame.Waits view read (.fanOut key value waiting audience go) := goes
    obtain ⟨orderly', waiting'⟩ := orderly.await rfl waits
    exact orderly'.feed waiting' upholds _ _ _ holds
  | nil =>
    simp only [Network.step] at moves
    cases queue : (network.subject key).queue with
    | cons later queue' =>
      simp only [queue] at moves
      obtain ⟨rfl, rfl⟩ := Prod.mk.inj moves
      have waits : Frame.Waits view read (.fanOut key later (network.subject key).listeners
        (network.subject key).listeners.length go) := goes
      refine ⟨orderly.put waits.brisk rfl, ?_⟩
      refine upholds.others (show Holds events (network.seen view read) from holds) ?_
      simp [stepEvents, queue]
    | nil =>
      simp only [queue] at moves
      obtain ⟨rfl, rfl⟩ := Prod.mk.inj moves
      refine ⟨orderly.put (show Frame.Brisk view read (.script _) from (goes _).brisk) rfl, ?_⟩
      rw [foreseen_plain (goes _)]
      refine upholds.others (show Holds events (network.seen view read) from holds) ?_
      simp [stepEvents, queue]

/-- A subscription is opened at one leaf more, or is open. -/
theorem step_opening {n leaf : Nat} {leaves : List (Leaf κ)} {go : Script κ ν ρ σ}
    (orderly : Orderly view read network (.opening n leaf leaves go :: rest))
    (upholds : Upholds view read Holds network)
    (moves : network.step (.opening n leaf leaves go :: rest) = (next, stack))
    (holds : Holds events (network.seen view read)) :
    Orderly view read next stack ∧
      Holds (events ++ network.stepEvents (.opening n leaf leaves go))
        (next.foreseen view read stack) := by
  have plain : go.Plain view read := orderly.top (.opening n leaf leaves go) rfl
  cases leaves with
  | nil =>
    obtain ⟨rfl, rfl⟩ := Prod.mk.inj moves
    refine ⟨orderly.put (show Frame.Brisk view read (.script _) from plain.brisk) rfl, ?_⟩
    rw [foreseen_plain plain]
    show Holds (events ++ []) (network.seen view read)
    rwa [List.append_nil]
  | cons first leaves =>
    have waits : Frame.Waits view read (.opening n (leaf + 1) leaves go) := plain
    cases first with
    | own =>
      obtain ⟨rfl, rfl⟩ := Prod.mk.inj moves
      obtain ⟨orderly', waiting'⟩ := orderly.await rfl waits
      exact orderly'.feed waiting' upholds _ _ _ holds
    | subject key =>
      have same : (network.attach key n leaf).subscriptions = network.subscriptions := rfl
      obtain ⟨orderly', waiting'⟩ := orderly.await same waits
      have attached := upholds.other (e := .attached ⟨key, n, leaf⟩ (network.subject key).latest)
        (by simp) holds
      cases latest : (network.subject key).latest with
      | some value =>
        have moved : network.step (.opening n leaf (.subject key :: leaves) go :: rest) =
            (((network.attach key n leaf).feed n leaf (some value)).1,
              ((network.attach key n leaf).feed n leaf (some value)).2 ++
                .opening n (leaf + 1) leaves go :: rest) := by
          simp [Network.step, attach, Subject.joined, latest]
        obtain ⟨rfl, rfl⟩ := Prod.mk.inj (moved.symm.trans moves)
        have fed := orderly'.feed waiting' (upholds.keeps (.of_eq same) rfl) n leaf (some value)
          attached
        rw [List.append_assoc, latest] at fed
        simp only [stepEvents, latest]
        exact fed
      | none =>
        have moved : network.step (.opening n leaf (.subject key :: leaves) go :: rest) =
            (network.attach key n leaf, .opening n (leaf + 1) leaves go :: rest) := by
          simp [Network.step, attach, Subject.joined, latest]
        obtain ⟨rfl, rfl⟩ := Prod.mk.inj (moved.symm.trans moves)
        rw [latest] at attached
        simp only [stepEvents, latest]
        exact ⟨orderly', attached⟩

/-- One step keeps order, and what every event keeps. -/
theorem step (orderly : Orderly view read network (frame :: rest))
    (upholds : Upholds view read Holds network)
    (moves : network.step (frame :: rest) = (next, stack))
    (holds : Holds events (network.foreseen view read (frame :: rest))) :
    Orderly view read next stack ∧
      Holds (events ++ network.stepEvents frame) (next.foreseen view read stack) := by
  cases frame with
  | script => exact orderly.step_script upholds moves holds
  | fanOut => exact orderly.step_fanOut upholds moves holds
  | opening => exact orderly.step_opening upholds moves holds

/-- A run keeps order, and what every event keeps. -/
theorem run (orderly : Orderly view read network stack) (upholds : Upholds view read Holds network)
    (run : Run network stack es last final)
    (holds : Holds events (network.foreseen view read stack)) :
    Orderly view read last final ∧ Holds (events ++ es) (last.foreseen view read final) := by
  induction run generalizing events with
  | still => exact ⟨orderly, by rwa [List.append_nil]⟩
  | step here _ ih =>
    obtain ⟨orderly', holds'⟩ := orderly.step upholds here holds
    obtain ⟨_, length⟩ := orderly.tame.step here
    obtain ⟨frames, _, transition⟩ := transition_of_step here
    rw [← List.append_assoc]
    exact ih orderly' (upholds.keeps transition.keeps length) holds'

end Orderly

end Network

end Switchboard
