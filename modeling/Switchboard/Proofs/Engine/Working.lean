import Mathlib.Logic.Function.Basic
import Switchboard.Proofs.Engine.Offering
import Switchboard.Proofs.Network.Reaching

/-!
# Rules at work over a watched sink

Where nothing is reported back, a value that is let in at a leaf of a rule
concerns this rule alone: it moves the rule along the course of its actions,
and what the rule fires meanwhile is offered and counted before anything else
happens. So a value that goes to the listeners of a line does its work one
rule after the other, and a rule that is subscribed does its work before the
next one is looked at.
-/
namespace Switchboard

open Event Network

/-- The leaves that read a line, where leaves are numbered from a certain number on. -/
def leavesOn (line : Line) : Nat → List (Leaf Line) → List Nat
  | _, [] => []
  | leaf, .own :: rest => leavesOn line (leaf + 1) rest
  | leaf, .subject other :: rest =>
    (if other = line then [leaf] else []) ++ leavesOn line (leaf + 1) rest

/-- What leaves take in when they are opened: the current values of their lines. -/
def greetings (current : Line → Option Json) : Nat → List (Leaf Line) → List (Nat × Option Json)
  | _, [] => []
  | leaf, .own :: rest => (leaf, none) :: greetings current (leaf + 1) rest
  | leaf, .subject line :: rest =>
    (current line).toList.map (fun value => (leaf, some value)) ++
      greetings current (leaf + 1) rest

namespace Post

variable (post : Post)

/-- The leaves of a post that read a line. -/
def readers (line : Line) : List Nat := leavesOn line 0 post.circuit.actions.leaves

/-- What a post takes in when it is subscribed. -/
def greeted (current : Line → Option Json) : List (Nat × Option Json) :=
  greetings current 0 post.circuit.actions.leaves

end Post

/-- The listeners of a line, if all posts listen; they are numbered from a certain number on. -/
def listenersFrom (line : Line) : Nat → List Post → List (Nat × Nat)
  | _, [] => []
  | n, post :: rest => (post.readers line).map (n, ·) ++ listenersFrom line (n + 1) rest

theorem listenersFrom_snoc (line : Line) (n : Nat) (posts : List Post) (post : Post) :
    listenersFrom line n (posts ++ [post]) =
      listenersFrom line n posts ++ (post.readers line).map (n + posts.length, ·) := by
  induction posts generalizing n with
  | nil => simp [listenersFrom]
  | cons first rest ih =>
    rw [List.cons_append, listenersFrom, listenersFrom, ih, List.append_assoc, List.length_cons,
      show n + 1 + rest.length = n + (rest.length + 1) by omega]

/-- A subject that nothing is on its way from. -/
def Subject.resting (latest : Option Json) (listeners : List (Nat × Nat)) : Subject Json :=
  ⟨latest, listeners, false, []⟩

/-- Rules at their posts over a watched sink, when some events have happened. -/
structure Working {ς : Type} (sink : Sink ς) (kind : ς → Prop) (posts : List Post)
    (events : List (Event Line Json)) (network : PlantNetwork (List Delivery × ς)) : Prop where
  holds : Within 0 (fun remembered => kind remembered.2) network.memory
  recorded : Recorded events network
  length : network.subscriptions.length = posts.length
  stands : ∀ (n : Nat) (post : Post), posts[n]? = some post →
    ∃ state, ∃ drive : Drive, drive.Serves post n ∧ network.subscriptions[n]? =
      some ⟨post.circuit.actions, state, drive.fire sink.recording⟩
  tallies : ∀ n, network.memory.tallies[n]? =
    (posts[n]?).map fun post : Post => post.tally (feeds n events)

namespace Working

variable {ς : Type} {sink : Sink ς} {kind : ς → Prop} {posts : List Post}
variable {events es : List (Event Line Json)} {network next : PlantNetwork (List Delivery × ς)}
variable {n : Nat} {post : Post}

/-- What no rule takes notice of changes nothing. -/
theorem unheard (working : Working sink kind posts events network)
    (subscriptions : next.subscriptions = network.subscriptions) (silent : Unheard es)
    (holds : Within 0 (fun remembered => kind remembered.2) next.memory)
    (tallies : next.memory.tallies = network.memory.tallies) :
    Working sink kind posts (events ++ es) next where
  holds := holds
  recorded := working.recorded.unheard subscriptions silent
  length := by rw [subscriptions, working.length]
  stands := by
    rw [subscriptions]
    exact working.stands
  tallies m := by
    rw [tallies, working.tallies, feeds_append, (silent m).1, List.append_nil]

/-- A rule has been called with what its actions make of its feeds. -/
theorem calls_eq (working : Working sink kind posts events network)
    (here : posts[n]? = some post) :
    calls n events = (post.circuit.actions.course (feeds n events)).2.map (Sigma.mk Action) := by
  obtain ⟨state, drive, _, stands⟩ := working.stands n post here
  exact working.recorded.calls n _ stands

/-- In what happens next, a rule fires what its actions make of its next feeds. -/
theorem calls_next (working : Working sink kind posts events network)
    (working' : Working sink kind posts (events ++ es) next) (here : posts[n]? = some post) :
    calls n es = (post.fired (feeds n events) (feeds n es)).map (Sigma.mk Action) := by
  have whole := working'.calls_eq here
  rw [calls_append, feeds_append, Stream.course_append, working.calls_eq here,
    List.map_append] at whole
  exact List.append_cancel_left whole

/-- What becomes of an action that reaches the top, if there is one. -/
theorem run_fired (silent : sink.Silent kind) (drive : Drive) (reached : Option Action)
    (holds : Within 0 (fun remembered => kind remembered.2) network.memory) :
    ∃ next, Run network (reached.toList.map fun action =>
        .script (drive.fire sink.recording action)) [] next [] ∧ network.Alike next ∧
      Within 0 (fun remembered => kind remembered.2) next.memory ∧
      next.memory.sink.1 = network.memory.sink.1 ++ reached.toList.flatMap drive.offers ∧
      next.memory.tallies = network.memory.tallies.modify drive.rule fun tally =>
        reached.toList.foldl (fun tally action => drive.counted action tally) tally := by
  cases reached with
  | none =>
    refine ⟨network, .still _ _, ⟨rfl, rfl⟩, holds, by simp, ?_⟩
    exact (List.modify_id _ _).symm
  | some action =>
    obtain ⟨next, run, alike, kept, memory⟩ :=
      run_outcome (drive.quiet_fire silent.recording action) holds
    obtain ⟨offered, tallied⟩ := drive.recorded_fire sink action network.memory
    rw [← memory] at offered tallied
    exact ⟨next, run, alike, kept, by simpa using offered, tallied⟩

/-- A rule has taken in some more, and nothing else has happened to the rules. -/
structure Takes (sink : Sink ς) (kind : ς → Prop) (posts : List Post) (n : Nat) (post : Post)
    (events : List (Event Line Json)) (network : PlantNetwork (List Delivery × ς))
    (more : List (Nat × Option Json)) (es : List (Event Line Json))
    (next : PlantNetwork (List Delivery × ς)) : Prop where
  working : Working sink kind posts (events ++ es) next
  fed : feeds n es = more
  others : ∀ m, m ≠ n → feeds m es = []
  offered : next.memory.sink.1 = network.memory.sink.1 ++ post.offers (feeds n events) more

namespace Takes

variable {more more' : List (Nat × Option Json)} {es' : List (Event Line Json)}
variable {last : PlantNetwork (List Delivery × ς)}

theorem trans (first : Takes sink kind posts n post events network more es next)
    (second : Takes sink kind posts n post (events ++ es) next more' es' last) :
    Takes sink kind posts n post events network (more ++ more') (es ++ es') last where
  working := by
    rw [← List.append_assoc]
    exact second.working
  fed := by rw [feeds_append, first.fed, second.fed]
  others m other := by rw [feeds_append, first.others m other, second.others m other]; rfl
  offered := by
    rw [second.offered, first.offered, feeds_append, first.fed, List.append_assoc,
      ← post.offers_append]

theorem nothing (working : Working sink kind posts events network)
    (subscriptions : next.subscriptions = network.subscriptions) (silent : Unheard es)
    (memory : next.memory = network.memory) :
    Takes sink kind posts n post events network [] es next where
  working := working.unheard subscriptions silent (by rw [memory]; exact working.holds)
    (by rw [memory])
  fed := (silent n).1
  others m _ := (silent m).1
  offered := by rw [memory, post.offers_nil, List.append_nil]

theorem refl (working : Working sink kind posts events network) :
    Takes sink kind posts n post events network [] [] network :=
  .nothing working rfl (fun _ => ⟨rfl, rfl⟩) rfl

end Takes

/-- A value that is let in at a leaf of a rule is the concern of this rule alone. -/
theorem feed (working : Working sink kind posts events network) (silent : sink.Silent kind)
    (here : posts[n]? = some post) (leaf : Nat) (incoming : Option Json) :
    ∃ next, Run (network.feed n leaf incoming).1 (network.feed n leaf incoming).2 [] next [] ∧
      next.subjects = network.subjects ∧
      Takes sink kind posts n post events network [(leaf, incoming)]
        (network.feedEvents n leaf incoming) next := by
  obtain ⟨state, drive, serves, stands⟩ := working.stands n post here
  obtain ⟨small, _⟩ := List.getElem?_eq_some_iff.mp stands
  obtain ⟨offers, counted⟩ := serves.same post.serves_drive
  have recorded : Recorded (events ++ network.feedEvents n leaf incoming)
      (network.feed n leaf incoming).1 := working.recorded.feed small
  obtain rfl : state = (post.circuit.actions.course (feeds n events)).1 :=
    working.recorded.state n _ stands
  obtain ⟨fed, reached, emitted, woken, _⟩ := feed_course stands leaf incoming
  have fired : post.fired (feeds n events) [(leaf, incoming)] = reached.toList := by
    rw [Stream.course_append] at emitted
    exact List.append_cancel_left emitted
  have holds : Within 0 (fun remembered => kind remembered.2)
      (network.feed n leaf incoming).1.memory := by
    rw [feed_memory]
    exact working.holds
  obtain ⟨next, run, alike, kept, offered, tallied⟩ := run_fired silent drive reached holds
  rw [feed_memory] at offered tallied
  have nothing : Unheard ([] : List (Event Line Json)) := fun _ => ⟨rfl, rfl⟩
  have recorded' := recorded.unheard alike.subscriptions nothing
  rw [List.append_nil] at recorded'
  have taken (m : Nat) := feeds_feedEvents network n leaf incoming m
  refine ⟨next, by rwa [woken], alike.subjects.trans (feed_subjects ..),
    ⟨⟨kept, recorded', ?_, fun m other there => ?_, fun m => ?_⟩, ?_, ?_, ?_⟩⟩
  · rw [alike.subscriptions, feed_length, working.length]
  · rw [alike.subscriptions]
    by_cases same : n = m
    · obtain rfl := same
      obtain rfl := Option.some.inj (there.symm.trans here)
      exact ⟨_, drive, serves, fed⟩
    · rw [feed_other same]
      exact working.stands m other there
  · rw [tallied, serves.rule, counted, feeds_append, taken]
    by_cases same : n = m
    · obtain rfl := same
      rw [List.getElem?_modify_eq, working.tallies, if_pos rfl, here, Option.map_some,
        Option.map_some, post.tally_append, fired]
      rfl
    · rw [List.getElem?_modify_ne _ _ same, working.tallies, if_neg same, List.append_nil]
  · rw [taken, if_pos rfl]
  · exact fun m other => by rw [taken, if_neg (Ne.symm other)]
  · rw [Post.offers, fired, ← offers, offered]

/-- A value that goes to some leaves of a rule is taken in at one after the other. -/
theorem sweeps (working : Working sink kind posts events network) (silent : sink.Silent kind)
    (here : posts[n]? = some post) (line : Line) (value : Json) (leaves : List Nat)
    (waiting : List (Nat × Nat)) (audience : Nat)
    (go : Nat → PlantScript (List Delivery × ς)) :
    ∃ es next, Run network [.fanOut line value (leaves.map (n, ·) ++ waiting) audience go] es next
        [.fanOut line value waiting audience go] ∧ next.subjects = network.subjects ∧
      Takes sink kind posts n post events network (sweep value leaves) es next := by
  induction leaves generalizing network events with
  | nil => exact ⟨[], network, .still _ _, rfl, .refl working⟩
  | cons leaf leaves ih =>
    obtain ⟨middle, run, subjects, takes⟩ := working.feed silent here leaf (some value)
    obtain ⟨es, next, run', subjects', takes'⟩ := ih takes.working
    exact ⟨network.feedEvents n leaf (some value) ++ es, next,
      .step rfl ((run.above _).trans run'), subjects'.trans subjects, takes.trans takes'⟩

/-- A value that goes to the listeners of a line does its work one rule after the other. -/
theorem fanOut (working : Working sink kind posts events network) (silent : sink.Silent kind)
    {before after : List Post} (split : posts = before ++ after)
    {taken : Post → List (Nat × Option Json)}
    (fed : ∀ n post, posts[n]? = some post → before.length ≤ n → feeds n events = taken post)
    (line : Line) (value : Json) (audience : Nat) (go : Nat → PlantScript (List Delivery × ς)) :
    ∃ es next, Run network [.fanOut line value (listenersFrom line before.length after) audience go]
        es next [.fanOut line value [] audience go] ∧ next.subjects = network.subjects ∧
      Working sink kind posts (events ++ es) next ∧
      (∀ n post, posts[n]? = some post → before.length ≤ n →
        feeds n es = sweep value (post.readers line)) ∧
      (∀ n, n < before.length → feeds n es = []) ∧
      next.memory.sink.1 = network.memory.sink.1 ++
        after.flatMap fun post => post.offers (taken post) (sweep value (post.readers line)) := by
  induction after generalizing network events before with
  | nil =>
    refine ⟨[], network, .still _ _, rfl, by rwa [List.append_nil], ?_, fun _ _ => rfl, by simp⟩
    intro n post here beyond
    rw [split, List.append_nil] at here
    have small := (List.getElem?_eq_some_iff.mp here).1
    omega
  | cons first rest ih =>
    have here : posts[before.length]? = some first := by simp [split]
    obtain ⟨es, middle, run, subjects, takes⟩ :=
      working.sweeps silent here line value (first.readers line)
        (listenersFrom line (before.length + 1) rest) audience go
    have split' : posts = (before ++ [first]) ++ rest := by simpa using split
    have one_more : (before ++ [first]).length = before.length + 1 := by simp
    have fed' (n : Nat) (post : Post) (there : posts[n]? = some post)
        (beyond : (before ++ [first]).length ≤ n) : feeds n (events ++ es) = taken post := by
      rw [feeds_append, takes.others n (by omega), List.append_nil]
      exact fed n post there (by omega)
    obtain ⟨es', next, run', subjects', working', swept, others, offered⟩ :=
      ih takes.working split' fed'
    rw [one_more] at run'
    refine ⟨es ++ es', next, run.trans run', subjects'.trans subjects,
      by rwa [← List.append_assoc], ?_, ?_, ?_⟩
    · intro n post there beyond
      rw [feeds_append]
      by_cases same : n = before.length
      · obtain rfl := same
        obtain rfl := Option.some.inj (there.symm.trans here)
        rw [takes.fed, others _ (by omega), List.append_nil]
      · rw [takes.others n same, swept n post there (by omega), List.nil_append]
    · intro n low
      rw [feeds_append, takes.others n (by omega), others n (by omega), List.append_nil]
    · rw [offered, takes.offered, fed _ first here (Nat.le_refl _), List.append_assoc,
        List.flatMap_cons]

/-- A leaf starts to listen. -/
theorem attach (n : Nat) (key : Line) (leaf : Nat) {current : Line → Option Json}
    {listened : Line → List (Nat × Nat)}
    (rests : ∀ line, network.subject line = .resting (current line) (listened line))
    (line : Line) : (network.attach key n leaf).subject line = .resting (current line)
      (listened line ++ (if key = line then [leaf] else []).map (n, ·)) := by
  rw [Network.attach, subject_setSubject]
  by_cases same : line = key
  · obtain rfl := same
    rw [if_pos rfl, if_pos rfl, rests]
    rfl
  · rw [if_neg same, if_neg (Ne.symm same), rests, List.map_nil, List.append_nil]

/-- A rule that is subscribed takes in the current values of its lines, and starts to listen. -/
theorem opening (working : Working sink kind posts events network) (silent : sink.Silent kind)
    (here : posts[n]? = some post) {current : Line → Option Json}
    {listened : Line → List (Nat × Nat)}
    (rests : ∀ line, network.subject line = .resting (current line) (listened line))
    (leaf : Nat) (leaves : List (Leaf Line)) (go : PlantScript (List Delivery × ς)) :
    ∃ es next, Run network [.opening n leaf leaves go] es next [.script go] ∧
      Takes sink kind posts n post events network (greetings current leaf leaves) es next ∧
      ∀ line, next.subject line =
        .resting (current line) (listened line ++ (leavesOn line leaf leaves).map (n, ·)) := by
  induction leaves generalizing network events leaf listened with
  | nil =>
    refine ⟨[], network, .step rfl (.still _ _), .refl working, fun line => ?_⟩
    rw [rests, leavesOn, List.map_nil, List.append_nil]
  | cons first leaves ih =>
    cases first with
    | own =>
      obtain ⟨middle, run, subjects, takes⟩ := working.feed silent here leaf none
      have rests' (line : Line) : middle.subject line = .resting (current line) (listened line) := by
        rw [subject_congr subjects, rests]
      obtain ⟨es, next, run', takes', listens⟩ := ih takes.working rests' (leaf + 1)
      exact ⟨network.feedEvents n leaf none ++ es, next, .step rfl ((run.above _).trans run'),
        takes.trans takes', listens⟩
    | subject key =>
      have joined := attach n key leaf rests
      have attached : Takes sink kind posts n post events network []
          [.attached ⟨key, n, leaf⟩ (current key)] (network.attach key n leaf) :=
        .nothing working rfl (fun _ => ⟨rfl, rfl⟩) rfl
      have latest : (network.subject key).latest = current key := congrArg Subject.latest (rests key)
      have together (line : Line) : listened line ++ (leavesOn line leaf (.subject key :: leaves)).map
          (n, ·) = listened line ++ (if key = line then [leaf] else []).map (n, ·) ++
            (leavesOn line (leaf + 1) leaves).map (n, ·) := by
        rw [leavesOn, List.map_append, List.append_assoc]
      simp only [greetings, together]
      cases has : current key with
      | none =>
        obtain ⟨es, next, run, takes, listens⟩ := ih attached.working joined (leaf + 1)
        rw [has] at attached takes
        exact ⟨_, next, (Run.attached (latest.trans has)).trans run, attached.trans takes, listens⟩
      | some value =>
        obtain ⟨middle, run, subjects, takes⟩ :=
          attached.working.feed silent here leaf (some value)
        have joined' (line : Line) : middle.subject line = .resting (current line)
            (listened line ++ (if key = line then [leaf] else []).map (n, ·)) := by
          rw [subject_congr subjects, joined]
        obtain ⟨es, next, run', takes', listens⟩ := ih takes.working joined' (leaf + 1)
        rw [has] at attached takes takes'
        exact ⟨_, next, (Run.replayed (latest.trans has)).trans ((run.above _).trans run'),
          attached.trans (takes.trans takes'), listens⟩

theorem tallies_length (working : Working sink kind posts events network) :
    network.memory.tallies.length = posts.length := by
  have beyond (n : Nat) : network.memory.tallies.length ≤ n ↔ posts.length ≤ n := by
    rw [← List.getElem?_eq_none_iff, working.tallies n, Option.map_eq_none_iff,
      List.getElem?_eq_none_iff]
  exact Nat.le_antisymm ((beyond _).mpr (Nat.le_refl _)) ((beyond _).mp (Nat.le_refl _))

/-- A rule that has its tally takes its place among the others. -/
theorem joins (working : Working sink kind posts events network) {ready : PlantNetwork (List Delivery × ς)}
    (alike : network.Alike ready) (holds : Within 0 (fun remembered => kind remembered.2) ready.memory)
    (tallies : ready.memory.tallies = network.memory.tallies ++ [.zero]) {drive : Drive}
    (serves : drive.Serves post posts.length) :
    Working sink kind (posts ++ [post]) (events ++ [.subscribed posts.length])
      { ready with subscriptions := ready.subscriptions ++
        [⟨post.circuit.actions, post.circuit.actions.initial, drive.fire sink.recording⟩] } := by
  have silent : Unheard ([.subscribed posts.length] : List (Event Line Json)) := fun _ => ⟨rfl, rfl⟩
  have nothing_yet : feeds posts.length events = [] :=
    (working.recorded.fresh posts.length (Nat.le_of_eq working.length)).1
  refine ⟨holds, working.recorded.subscribed (by rw [alike.subscriptions]) silent, ?_, ?_, ?_⟩
  · rw [List.length_append, List.length_append, alike.subscriptions, working.length]
    rfl
  · intro m other there
    by_cases low : m < posts.length
    · rw [List.getElem?_append_left low] at there
      obtain ⟨state, old, serves', stands⟩ := working.stands m other there
      refine ⟨state, old, serves', ?_⟩
      rw [alike.subscriptions, List.getElem?_append_left (by rw [working.length]; exact low)]
      exact stands
    · have small := (List.getElem?_eq_some_iff.mp there).1
      rw [List.length_append, List.length_singleton] at small
      obtain rfl : m = posts.length := by omega
      rw [List.getElem?_concat_length] at there
      obtain rfl := Option.some.inj there
      refine ⟨post.circuit.actions.initial, drive, serves, ?_⟩
      rw [alike.subscriptions, ← working.length, List.getElem?_concat_length]
  · intro m
    rw [tallies, feeds_append, (silent m).1, List.append_nil]
    by_cases low : m < posts.length
    · rw [List.getElem?_append_left low,
        List.getElem?_append_left (by rw [working.tallies_length]; exact low), working.tallies]
    · by_cases same : m = posts.length
      · obtain rfl := same
        rw [List.getElem?_concat_length, ← working.tallies_length, List.getElem?_concat_length,
          working.tallies_length, Option.map_some, nothing_yet]
        rfl
      · rw [List.getElem?_eq_none (by rw [List.length_append, working.tallies_length]; simp; omega),
          List.getElem?_eq_none (by rw [List.length_append]; simp; omega)]
        rfl

/-- A rule that is subscribed takes in the current values of its lines, and starts to listen. -/
theorem subscribe (working : Working sink kind posts events network) (silent : sink.Silent kind)
    {ready : PlantNetwork (List Delivery × ς)} (alike : network.Alike ready)
    (remembered : ready.memory.sink = network.memory.sink)
    (generation : ready.memory.bus.generation = network.memory.bus.generation)
    (tallies : ready.memory.tallies = network.memory.tallies ++ [.zero]) {drive : Drive}
    (serves : drive.Serves post posts.length) {current : Line → Option Json}
    (rests : ∀ line, network.subject line = .resting (current line) (listenersFrom line 0 posts)) :
    ∃ es next, Run ready
        [.script (.subscribe post.circuit.actions (drive.fire sink.recording) fun _ => .done)] es next [] ∧
      Takes sink kind (posts ++ [post]) posts.length post events network (post.greeted current) es next ∧
      ∀ line, next.subject line =
        .resting (current line) (listenersFrom line 0 (posts ++ [post])) := by
  have holds : Within 0 (fun remembered => kind remembered.2) ready.memory := by
    refine ⟨generation.trans working.holds.1, ?_⟩
    rw [remembered]
    exact working.holds.2
  have joined := working.joins alike holds tallies serves
  have here : (posts ++ [post])[posts.length]? = some post := List.getElem?_concat_length
  have rests' (line : Line) : ready.subject line =
      .resting (current line) (listenersFrom line 0 posts) := by
    rw [subject_congr alike.subjects, rests]
  obtain ⟨es, next, run, takes, listens⟩ :=
    joined.opening silent here rests' 0 post.circuit.actions.leaves .done
  have count : ready.subscriptions.length = posts.length := by
    rw [alike.subscriptions, working.length]
  have begins : Run ready
      [.script (.subscribe post.circuit.actions (drive.fire sink.recording) fun _ => .done)]
      [.subscribed posts.length]
      { ready with subscriptions := ready.subscriptions ++
        [⟨post.circuit.actions, post.circuit.actions.initial, drive.fire sink.recording⟩] }
      [.opening posts.length 0 post.circuit.actions.leaves .done] := by
    rw [← count]
    exact .single rfl
  have ends : Run next [.script .done] [] next [] := .step rfl (.still _ _)
  refine ⟨.subscribed posts.length :: es, next, ?_, ⟨?_, takes.fed, takes.others, ?_⟩, ?_⟩
  · have whole := begins.trans (run.trans ends)
    rwa [List.append_nil] at whole
  · rw [List.append_cons events]
    exact takes.working
  · have offered := takes.offered
    rw [feeds_append, show feeds posts.length [.subscribed posts.length] = [] from rfl,
      List.append_nil] at offered
    rw [offered, remembered]
    rfl
  · intro line
    rw [listens, listenersFrom_snoc, Nat.zero_add]
    rfl

/-- The value of a publication sets out to the listeners of its line. -/
theorem sets_out (working : Working sink kind posts events network)
    {current : Line → Option Json}
    (rests : ∀ line, network.subject line = .resting (current line) (listenersFrom line 0 posts))
    (path : String) (value : Json) :
    ∃ next, Run network [.script (Engine.publication path value)]
        [.published ⟨0, path⟩ value, .setOut ⟨0, path⟩ value] next
        [.fanOut ⟨0, path⟩ value (listenersFrom ⟨0, path⟩ 0 posts)
          (listenersFrom ⟨0, path⟩ 0 posts).length Engine.reports] ∧
      Working sink kind posts
        (events ++ [.published ⟨0, path⟩ value, .setOut ⟨0, path⟩ value]) next ∧
      next.memory.sink = network.memory.sink ∧
      ∀ line, next.subject line = if line = ⟨0, path⟩ then
          (Subject.resting (current line) (listenersFrom line 0 posts)).sending value []
        else .resting (current line) (listenersFrom line 0 posts) := by
  obtain ⟨ready, begins, alike, memory⟩ := Engine.publication_begins working.holds.1 path value
  have rests' (line : Line) : ready.subject line =
      .resting (current line) (listenersFrom line 0 posts) := by
    rw [subject_congr alike.subjects, rests]
  have goes : Run ready [.script (.publish ⟨0, path⟩ value Engine.reports)] _ _ _ :=
    .begun (congrArg Subject.busy (rests' ⟨0, path⟩))
  rw [congrArg Subject.listeners (rests' ⟨0, path⟩)] at goes
  refine ⟨_, begins.trans goes, ?_, ?_, fun line => ?_⟩
  · refine working.unheard alike.subscriptions (fun _ => ⟨rfl, rfl⟩) ?_ ?_
    · show Within 0 _ ready.memory
      rw [memory]
      exact ⟨(Engine.touch_generation _ path).trans working.holds.1, working.holds.2⟩
    · show ready.memory.tallies = _
      rw [memory]
  · show ready.memory.sink = _
    rw [memory]
  · rw [subject_setOut]
    split
    · rename_i same
      rw [same, rests']
    · exact rests' line

/-- A value that has reached everybody leaves its line at rest, and the audience is reported. -/
theorem comes_to_rest (working : Working sink kind posts events network) {line : Line}
    (value : Json) (audience : Nat) (empty : (network.subject line).queue = []) :
    ∃ next, Run network [.fanOut line value [] audience Engine.reports] [] next [] ∧
      Working sink kind posts events next ∧ next.memory.sink = network.memory.sink ∧
      ∀ other, next.subject other =
        if other = line then (network.subject line).released else network.subject other := by
  let released := network.setSubject line (network.subject line).released
  let last : PlantNetwork (List Delivery × ς) :=
    { released with memory := { released.memory with audience := audience } }
  have ends : Run released [.script (Engine.reports audience)] [] last [] :=
    .step rfl (.step rfl (.still _ _))
  have nothing : Unheard ([] : List (Event Line Json)) := fun _ => ⟨rfl, rfl⟩
  have done : Working sink kind posts (events ++ []) last :=
    working.unheard rfl nothing working.holds rfl
  rw [List.append_nil] at done
  exact ⟨last, (Run.finished empty).trans ends, done, rfl,
    fun other => subject_setSubject network line other _⟩

/-- A publication does its work one rule after the other, and leaves the line with its value. -/
theorem publish (working : Working sink kind posts events network) (silent : sink.Silent kind)
    {current : Line → Option Json}
    (rests : ∀ line, network.subject line = .resting (current line) (listenersFrom line 0 posts))
    {taken : Post → List (Nat × Option Json)}
    (fed : ∀ n post, posts[n]? = some post → feeds n events = taken post)
    (path : String) (value : Json) :
    ∃ es next, Run network [.script (Engine.publication path value)] es next [] ∧
      Working sink kind posts (events ++ es) next ∧
      (∀ n post, posts[n]? = some post → feeds n es = sweep value (post.readers ⟨0, path⟩)) ∧
      next.memory.sink.1 = network.memory.sink.1 ++
        posts.flatMap (fun post => post.offers (taken post) (sweep value (post.readers ⟨0, path⟩))) ∧
      ∀ line, next.subject line = .resting (Function.update current ⟨0, path⟩ (some value) line)
        (listenersFrom line 0 posts) := by
  obtain ⟨ready, goes, set_out, remembered, sending⟩ := working.sets_out rests path value
  have fed' (n : Nat) (post : Post) (here : posts[n]? = some post) (_ : 0 ≤ n) : feeds n
      (events ++ [.published ⟨0, path⟩ value, .setOut ⟨0, path⟩ value]) = taken post := by
    rw [feeds_append, fed n post here]
    exact List.append_nil _
  have whole : posts = [] ++ posts := rfl
  obtain ⟨es, middle, passes, subjects, working', swept, _, offered⟩ :=
    set_out.fanOut silent whole fed' ⟨0, path⟩ value (listenersFrom ⟨0, path⟩ 0 posts).length
      Engine.reports
  have sending' := sending
  rw [← subject_congr subjects] at sending'
  have empty : (middle.subject ⟨0, path⟩).queue = [] := by
    rw [sending', if_pos rfl]
    rfl
  obtain ⟨last, ends, working'', same_sink, rests'⟩ := working'.comes_to_rest value
    (listenersFrom ⟨0, path⟩ 0 posts).length empty
  refine ⟨_, last, goes.trans (passes.trans ends), ?_, ?_, ?_, fun line => ?_⟩
  · rw [List.append_nil, ← List.append_assoc]
    exact working''
  · intro n post here
    rw [List.append_nil]
    exact swept n post here (Nat.zero_le n)
  · rw [same_sink, offered, remembered]
  · rw [rests' line, sending', sending']
    by_cases same : line = ⟨0, path⟩
    · rw [if_pos same, if_pos rfl, same, Function.update_self]
      rfl
    · rw [if_neg same, if_neg same, Function.update_of_ne same]

end Working

end Switchboard
