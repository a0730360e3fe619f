import Switchboard.Proofs.Engine.Budget
import Switchboard.Proofs.Engine.Working

/-!
# Rules stand alone

Where the sink reports nothing back, a rule does what it would do if it were
the only one: what it takes in is what has been published, whether before the
start or after it, and its leaves are let in on that whatever other rules do.
So an engine offers, step by step, what its rules offer when each is alone,
one rule after the other as they are configured. Neither other rules nor the
answers of the sink make a difference to the actions and the tally of a rule.
-/
namespace Switchboard

open Event Network

/-- What the lines show when some values have been published. -/
def currentAfter (current : Line → Option Json) (values : List (String × Json)) :
    Line → Option Json :=
  values.foldl (fun current value => Function.update current ⟨0, value.1⟩ (some value.2)) current

namespace Post

variable (post : Post)

/-- What a post takes in when a value is published. -/
def swept (value : String × Json) : List (Nat × Option Json) :=
  sweep value.2 (post.readers ⟨0, value.1⟩)

/-- What a post has taken in after its start and some publications. -/
def taken (current : Line → Option Json) (values : List (String × Json)) :
    List (Nat × Option Json) :=
  post.greeted current ++ values.flatMap post.swept

/-- What a post does at its start, and in each of some publications. -/
def conductAt (current : Line → Option Json) (values : List (String × Json)) : Nat → Conduct
  | 0 => post.conduct [] (post.greeted current)
  | step + 1 =>
    match values[step]? with
    | some value => post.conduct (post.taken current (values.take step)) (post.swept value)
    | none => ⟨[], []⟩

end Post

namespace Engine

variable {ς : Type}

/-- What an engine over a watched sink has done on the way from one state to another. -/
structure Shows (engine after : Engine (List Delivery × ς)) (happens : Nat → List (Event Line Json))
    (conduct : Conduct) : Prop where
  offered : after.plant.sink.1 = engine.plant.sink.1 ++ conduct.offered
  status : after.status.rules.map (fun status => (status.rule.description, status.tally)) =
    conduct.rules.map fun rule => (rule.description, rule.tally)
  fired : ∀ (n : Nat) (rule : RuleConduct), conduct.rules[n]? = some rule →
    ∃ least, ∀ budget, least ≤ budget →
      calls n (happens budget) = rule.fired.map (Sigma.mk Action)

/--
What an engine over a watched sink does when its rules are started on a bus with some content, and
then in each of some publications.
-/
def Conducts (engine : Engine (List Delivery × ς)) (config : EngineConfig)
    (before values : List (String × Json)) (conduct : Nat → Conduct) : Prop :=
  ∃ ready started, engine.Publishes before ready ∧ ready.Starts config started ∧
    Shows ready started (ready.startEvents · config) (conduct 0) ∧
    ∀ (step : Nat) (path : String) (value : Json), values[step]? = some (path, value) →
      ∃ now next, started.Publishes (values.take step) now ∧ now.Publishes [(path, value)] next ∧
        Shows now next (now.publishEvents · path value) (conduct (step + 1))

/-- An engine at rest whose rules are at their posts. -/
structure Posted (sink : Sink ς) (kind : ς → Prop) (posts : List Post)
    (current : Line → Option Json) (taken : Post → List (Nat × Option Json))
    (events : List (Event Line Json)) (engine : Engine (List Delivery × ς)) : Prop where
  same_sink : engine.sink = sink.recording
  working : Working sink kind posts events engine.network
  rests : ∀ line, engine.network.subject line =
    .resting (current line) (listenersFrom line 0 posts)
  fed : ∀ n post, posts[n]? = some post → feeds n events = taken post

namespace Posted

variable {sink : Sink ς} {kind : ς → Prop} {posts : List Post} {current : Line → Option Json}
variable {taken : Post → List (Nat × Option Json)} {events : List (Event Line Json)}
variable {engine after : Engine (List Delivery × ς)}

theorem start (taken : Post → List (Nat × Option Json)) {remembered : ς} (here : kind remembered)
    (logs : Option RuleLog.Site) : Posted sink kind [] (fun _ => none) taken []
      (Engine.new sink.recording ([], remembered) logs) where
  same_sink := rfl
  working := ⟨⟨rfl, here⟩, .start _, rfl, nofun, fun _ => rfl⟩
  rests _ := rfl
  fed := nofun

theorem still (posted : Posted sink kind posts current taken events engine)
    (still : engine.Still after) : Posted sink kind posts current taken events after where
  same_sink := still.sink.trans posted.same_sink
  working := by
    have nothing : Unheard ([] : List (Event Line Json)) := fun _ => ⟨rfl, rfl⟩
    have working : Working sink kind posts (events ++ []) after.network := by
      refine posted.working.unheard still.alike.subscriptions nothing ⟨?_, ?_⟩ still.tallies
      · exact still.generation.trans posted.working.holds.1
      · rw [show after.network.memory.sink = _ from still.remembered]
        exact posted.working.holds.2
    rwa [List.append_nil] at working
  rests line := by
    rw [subject_congr still.alike.subjects]
    exact posted.rests line
  fed := posted.fed

theorem tallies (posted : Posted sink kind posts current taken events engine) :
    engine.plant.tallies = posts.map fun post => post.tally (taken post) := by
  refine List.ext_getElem? fun n => ?_
  rw [List.getElem?_map]
  refine (posted.working.tallies n).trans ?_
  cases here : posts[n]? with
  | none => rfl
  | some post => rw [Option.map_some, Option.map_some, posted.fed n post here]

/-- What the status shows of rules at their posts. -/
theorem status (posted : Posted sink kind posts current taken events engine)
    (fills : List.Forall₂ ActiveRule.Fills engine.active posts) :
    engine.status.rules.map (fun status => (status.rule.description, status.tally)) =
      posts.map fun post => (post.description, post.tally (taken post)) := by
  rw [Engine.status, posted.tallies]
  clear posted
  generalize engine.active = rules at fills
  induction fills with
  | nil => rfl
  | cons fills _ ih =>
    rw [List.map_cons, List.zipWith_cons_cons, List.map_cons, List.map_cons, ih, fills.description]

/-- Every rule does its work in a publication, and the engine is at rest again. -/
theorem publish (posted : Posted sink kind posts current taken events engine)
    (silent : sink.Silent kind) (fills : List.Forall₂ ActiveRule.Fills engine.active posts)
    (path : String) (value : Json) :
    ∃ es next, engine.Publishes [(path, value)] next ∧
      Posted sink kind posts (Function.update current ⟨0, path⟩ (some value))
        (fun post => taken post ++ post.swept (path, value)) (events ++ es) next ∧
      Shows engine next (engine.publishEvents · path value)
        (.join (posts.map fun post => post.conduct (taken post) (post.swept (path, value)))) ∧
      next.active = engine.active ∧ next.running = engine.running := by
  obtain ⟨es, network, run, working, fed, offered, rests⟩ :=
    posted.working.publish silent posted.rests posted.fed path value
  obtain ⟨least, ends⟩ := publish_of_run run
  have fed_all (n : Nat) (post : Post) (here : posts[n]? = some post) :
      feeds n (events ++ es) = taken post ++ post.swept (path, value) := by
    rw [feeds_append, posted.fed n post here, fed n post here]
    rfl
  have posted' : Posted sink kind posts (Function.update current ⟨0, path⟩ (some value))
      (fun post => taken post ++ post.swept (path, value)) (events ++ es)
      (engine.withNetwork network) := ⟨posted.same_sink, working, rests, fed_all⟩
  refine ⟨es, engine.withNetwork network, ⟨least, fun budget enough => ?_⟩, posted', ⟨?_, ?_, ?_⟩,
    rfl, rfl⟩
  · simp only [Engine.publishAll, (ends budget enough).1]
  · rw [Conduct.join_offered]
    exact offered
  · rw [posted'.status fills, Conduct.join_rules, List.map_map]
    rfl
  · intro n rule there
    rw [Conduct.join_rules, List.getElem?_map] at there
    obtain ⟨post, here, rfl⟩ := Option.map_eq_some_iff.mp there
    refine ⟨least, fun budget enough => ?_⟩
    show calls n (engine.publishEvents budget path value) = _
    rw [(ends budget enough).2, posted.working.calls_next working here, posted.fed n post here,
      fed n post here]
    rfl

/-- Every rule does its work in each of some publications. -/
theorem publishAll (posted : Posted sink kind posts current taken events engine)
    (silent : sink.Silent kind) (fills : List.Forall₂ ActiveRule.Fills engine.active posts)
    (values : List (String × Json)) :
    ∃ es last, engine.Publishes values last ∧
      Posted sink kind posts (currentAfter current values)
        (fun post => taken post ++ values.flatMap post.swept) (events ++ es) last ∧
      last.active = engine.active ∧ last.running = engine.running := by
  induction values generalizing current taken events engine with
  | nil =>
    refine ⟨[], engine, .nil engine, ?_, rfl, rfl⟩
    show Posted sink kind posts current _ _ _
    simpa using posted
  | cons first rest ih =>
    obtain ⟨path, value⟩ := first
    obtain ⟨es, middle, published, posted', _, active, running⟩ :=
      posted.publish silent fills path value
    rw [← active] at fills
    obtain ⟨es', last, published', posted'', active', running'⟩ := ih posted' fills
    refine ⟨es ++ es', last, published.cons published', ?_, active'.trans active,
      running'.trans running⟩
    show Posted sink kind posts (currentAfter (Function.update current ⟨0, path⟩ (some value)) rest)
      _ _ _
    simpa only [List.flatMap_cons, List.append_assoc] using posted''

/-- A rule that is subscribed does its work at once. -/
theorem subscribe (posted : Posted sink kind posts current (·.greeted current) events engine)
    (silent : sink.Silent kind) {ready : Engine (List Delivery × ς)} {drive : Drive} {post : Post}
    (readies : engine.Readies ready drive post) :
    ∃ least es after handle,
      Posted sink kind (posts ++ [post]) current (·.greeted current) (events ++ es) after ∧
      after.plant.sink.1 = engine.plant.sink.1 ++ post.offers [] (post.greeted current) ∧
      ∀ budget, least ≤ budget →
        ready.subscribe budget post.circuit.actions (drive.fire engine.sink) =
            some (after, handle) ∧
          ready.subscribeEvents budget post.circuit.actions (drive.fire engine.sink) = es := by
  have serves : drive.Serves post posts.length := by
    rw [← posted.working.tallies_length]
    exact readies.serves
  obtain ⟨es, network, run, takes, rests⟩ :=
    posted.working.subscribe silent readies.aside.alike readies.aside.remembered
      readies.aside.generation readies.tallies serves posted.rests
  rw [← posted.same_sink] at run
  obtain ⟨least, ends⟩ := subscribe_of_run run
  have nothing_yet : feeds posts.length events = [] :=
    (posted.working.recorded.fresh posts.length (Nat.le_of_eq posted.working.length)).1
  refine ⟨least, es, ready.withNetwork network, _, ⟨?_, takes.working, rests, ?_⟩, ?_, ends⟩
  · exact readies.aside.sink.trans posted.same_sink
  · intro n other here
    rw [feeds_append]
    by_cases low : n < posts.length
    · rw [List.getElem?_append_left low] at here
      rw [takes.others n (by omega), List.append_nil, posted.fed n other here]
    · have small := (List.getElem?_eq_some_iff.mp here).1
      rw [List.length_append, List.length_singleton] at small
      obtain rfl : n = posts.length := by omega
      rw [List.getElem?_concat_length] at here
      obtain rfl := Option.some.inj here
      rw [takes.fed, nothing_yet, List.nil_append]
  · have offered := takes.offered
    rw [nothing_yet] at offered
    exact offered

/-- Every rule that is started does its work one after the other. -/
theorem starts (posted : Posted sink kind [] current (·.greeted current) [] engine)
    (silent : sink.Silent kind) (idle : engine.running = false) (none_active : engine.active = [])
    (config : EngineConfig) :
    ∃ es started, engine.Starts config started ∧
      Posted sink kind config.posts current (·.greeted current) es started ∧
      List.Forall₂ ActiveRule.Fills started.active config.posts ∧
      Shows engine started (engine.startEvents · config)
        (.join (config.posts.map fun post => post.conduct [] (post.greeted current))) := by
  obtain ⟨least, es, started, report, ⟨posted', offered⟩, fills, ends⟩ :=
    start_fills config
      (fun now posts es => Posted sink kind posts current (·.greeted current) es now ∧
        now.plant.sink.1 = engine.plant.sink.1 ++
          posts.flatMap fun post => post.offers [] (post.greeted current))
      (fun holds => holds.1.working.holds.1)
      (fun still holds => ⟨holds.1.still still, by rw [still.remembered, holds.2]⟩)
      (fun post drive _ readies holds => by
        obtain ⟨least, es, after, handle, posted', offered, ends⟩ :=
          holds.1.subscribe silent readies
        refine ⟨least, es, after, handle, ⟨posted', ?_⟩, ends⟩
        rw [offered, holds.2, List.flatMap_append, List.append_assoc, List.flatMap_singleton])
      idle none_active ⟨posted, by simp⟩
  refine ⟨es, started, ⟨least, report, fun budget enough => (ends budget enough).1⟩, posted', fills,
    ?_, ?_, ?_⟩
  · rw [Conduct.join_offered _ (fun _ => [])]
    exact offered
  · rw [posted'.status fills, Conduct.join_rules _ (fun _ => []), List.map_map]
    rfl
  · intro n rule there
    rw [Conduct.join_rules _ (fun _ => []), List.getElem?_map] at there
    obtain ⟨post, here, rfl⟩ := Option.map_eq_some_iff.mp there
    refine ⟨least, fun budget enough => ?_⟩
    show calls n (engine.startEvents budget config) = _
    rw [(ends budget enough).2, posted'.working.calls_eq here, posted'.fed n post here]
    rfl

/-- Where there are no rules, it does not matter what has happened. -/
theorem forgets (posted : Posted sink kind [] current taken events engine)
    (taken' : Post → List (Nat × Option Json)) : Posted sink kind [] current taken' [] engine where
  same_sink := posted.same_sink
  working := by
    have empty : engine.network.subscriptions = [] :=
      List.eq_nil_of_length_eq_zero posted.working.length
    refine ⟨posted.working.holds, ⟨fun _ _ => ⟨rfl, rfl⟩, ?_, ?_⟩, posted.working.length, nofun,
      posted.working.tallies⟩
    · rw [empty]
      exact nofun
    · rw [empty]
      exact nofun
  rests := posted.rests
  fed := nofun

end Posted

/-- An engine over a watched, silent sink does, step by step, what its posts say. -/
theorem conducts_posts {sink : Sink ς} {kind : ς → Prop} (silent : sink.Silent kind)
    {remembered : ς} (here : kind remembered) (logs : Option RuleLog.Site) (config : EngineConfig)
    (before values : List (String × Json)) :
    (Engine.new sink.recording ([], remembered) logs).Conducts config before values fun step =>
      .join (config.posts.map
        (·.conductAt (currentAfter (fun _ => none) before) values step)) := by
  have fresh : Posted sink kind [] (fun _ => none) (fun _ => []) []
      (Engine.new sink.recording ([], remembered) logs) := .start _ here logs
  obtain ⟨es, ready, published, posted, none_active, idle⟩ := fresh.publishAll silent .nil before
  obtain ⟨es', started, starts, posted', fills, shows⟩ :=
    (posted.forgets _).starts silent idle none_active config
  refine ⟨ready, started, published, starts, shows, fun step path value there => ?_⟩
  obtain ⟨es'', now, published', posted'', active, _⟩ :=
    posted'.publishAll silent fills (values.take step)
  rw [← active] at fills
  obtain ⟨_, next, published'', _, shows', _, _⟩ := posted''.publish silent fills path value
  refine ⟨now, next, published', published'', ?_⟩
  simp only [Post.conductAt, there]
  exact shows'

end Engine

namespace EngineConfig

/-- The configuration of one rule alone; what is put rather than notified stays the same. -/
def only (config : EngineConfig) (rule : RuleConfig) : EngineConfig :=
  { config with rules := [rule] }

/-- The posts are those that the rules have when each is alone, in the order of the rules. -/
theorem posts_eq (config : EngineConfig) :
    config.posts = config.rules.flatMap fun rule => (config.only rule).posts := by
  have numbered (rules : List RuleConfig) (index : Nat) :
      config.postsOf ((rules.zipIdx index).filter (·.1.standing == .candidate)) =
        rules.flatMap fun rule => (config.only rule).posts := by
    induction rules generalizing index with
    | nil => rfl
    | cons rule rest ih =>
      have alone : (config.only rule).posts =
          config.postsOf ([(rule, 0)].filter (·.1.standing == .candidate)) := rfl
      rw [List.zipIdx_cons, List.flatMap_cons, ← ih (index + 1), alone]
      by_cases candidate : (rule.standing == .candidate) = true
      · simp [candidate, postsOf, List.filterMap_cons]
        cases config.post? rule <;> rfl
      · simp [candidate, postsOf]
  exact numbered config.rules 0

end EngineConfig

theorem Conduct.join_flatMap {α β : Type} (items : List α) (split : α → List β)
    (conduct : β → Conduct) : Conduct.join ((items.flatMap split).map conduct) =
      .join (items.map fun item => .join ((split item).map conduct)) := by
  simp only [join, List.flatMap_map, List.flatMap_assoc]

namespace Engine

/--
Whatever the sinks answer, as long as they report nothing back: what an engine offers at its start
and in each publication is what its rules offer when each is alone, one after the other in the order
of the configuration; and the rules fire and count what they fire and count when each is alone.
-/
theorem rules_stand_alone {ς ς' : Type} {sink : Sink ς} {kind : ς → Prop}
    (silent : sink.Silent kind) {sink' : Sink ς'} {kind' : ς' → Prop}
    (silent' : sink'.Silent kind') {remembered : ς} (here : kind remembered) {remembered' : ς'}
    (here' : kind' remembered') (logs logs' : Option RuleLog.Site) (config : EngineConfig)
    (before values : List (String × Json)) :
    ∃ conduct : RuleConfig → Nat → Conduct,
      (∀ rule ∈ config.rules, (Engine.new sink'.recording ([], remembered') logs').Conducts
        (config.only rule) before values (conduct rule)) ∧
      (Engine.new sink.recording ([], remembered) logs).Conducts config before values
        fun step => .join (config.rules.map (conduct · step)) := by
  refine ⟨fun rule step => .join ((config.only rule).posts.map
    (·.conductAt (currentAfter (fun _ => none) before) values step)), fun rule _ => ?_, ?_⟩
  · exact conducts_posts silent' here' logs' (config.only rule) before values
  · have together := conducts_posts silent here logs config before values
    simp only [config.posts_eq, Conduct.join_flatMap] at together
    exact together

namespace Neighbours

/-- Among the rules are one whose output is a constant, and one that has no input. -/
def config : EngineConfig := ⟨["y"],
  [⟨none, some "p", some "x", none, false, true⟩, ⟨none, some "p", some "off", none, false, true⟩,
   ⟨none, none, some "z", none, false, true⟩, ⟨none, some "p", some "y", none, false, true⟩]⟩

/-- The sink refuses everything. -/
def fresh : Engine (List Delivery × Outlet) :=
  .new Outlet.sink.recording ([], .limited (some 0) "gone" false) none

def started : Engine (List Delivery × Outlet) := ((fresh.start 200 config).map Prod.fst).getD fresh

def last : Engine (List Delivery × Outlet) := (started.publishAll 200 [("p", .int 1)]).getD started

theorem starts_started : fresh.Starts config started := by
  have ends : fresh.start 200 config = some (started, .ok ⟨["p => x", "p => off", "p => y"],
    [⟨" => z", .missingProperty "input"⟩], []⟩) := rfl
  exact starts_of_some ends

theorem publishes_last : started.Publishes [("p", .int 1)] last := by
  have ends : started.publishAll 200 [("p", .int 1)] = some last := rfl
  exact publishes_of_some ends

end Neighbours

/-- What the rules offer to a sink that refuses everything is what they offer to one that does not. -/
theorem neighbours_stand_alone : ∃ conduct : RuleConfig → Nat → Conduct,
    (∀ rule ∈ Neighbours.config.rules,
      (Engine.new Outlet.sink.recording ([], .limited none "" false) none).Conducts
        (Neighbours.config.only rule) [] [("p", .int 1)] (conduct rule)) ∧
    (Conduct.join (Neighbours.config.rules.map (conduct · 1))).offered =
      [⟨.notify, some "switchlogic", "x", .int 1⟩, ⟨.put, none, "y", .int 1⟩] := by
  obtain ⟨conduct, alone, ready, started, published, starts, _, steps⟩ :=
    rules_stand_alone Outlet.silent Outlet.silent
      (show (Outlet.limited (some 0) "gone" false).loopback = false from rfl)
      (show (Outlet.limited none "" false).loopback = false from rfl) none none Neighbours.config []
      [("p", .int 1)]
  obtain rfl := published.unique (.nil Neighbours.fresh)
  obtain rfl := starts.unique Neighbours.starts_started
  obtain ⟨now, next, published', published'', shows⟩ := steps 0 "p" (.int 1) rfl
  obtain rfl := published'.unique (.nil Neighbours.started)
  obtain rfl := published''.unique Neighbours.publishes_last
  exact ⟨conduct, alone, shows.offered.symm⟩

end Engine

end Switchboard
