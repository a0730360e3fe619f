import Switchboard.Engine.Operation
import Switchboard.Proofs.Network.Attending

/-!
# Sessions

Publications from outside, one after the other, and what happens on the way.
An operation takes a budget of steps; what matters is the result that it has
for all budgets from some amount on.
-/
namespace Switchboard

open Event Network

/-- The plant's bus is in a certain generation. -/
def InGeneration {ς : Type} (generation : Nat) (plant : Plant ς) : Prop :=
  plant.bus.generation = generation

/-- Besides, what the plant's sink remembers is of some kind. -/
def Within {ς : Type} (generation : Nat) (kind : ς → Prop) (plant : Plant ς) : Prop :=
  InGeneration generation plant ∧ kind plant.sink

theorem within_true {ς : Type} (generation : Nat) :
    Within generation (fun _ : ς => True) = InGeneration generation :=
  funext fun _ => and_true _

/-- A note on an answer concerns nobody. -/
theorem Drive.quiet_noteAnswer {ς : Type} {generation : Nat} {kind : ς → Prop} (drive : Drive)
    (answer : Answer) :
    (drive.noteAnswer answer : PlantScript ς).Quiet (Within generation kind) := by
  unfold noteAnswer
  split
  · exact .record .done
  · exact .done
  · exact .record .done
  · exact .record .done

/-- Values for the lines of a generation. -/
def onLines (generation : Nat) (values : List (String × Json)) : List (Line × Json) :=
  values.map fun value => (⟨generation, value.1⟩, value.2)

namespace Engine

variable {ς : Type}

/-- What a publication from outside does. -/
def publication (path : String) (value : Json) : PlantScript ς :=
  PlantScript.publish path value fun n => .change (fun plant => { plant with audience := n }) .done

/-- What happens in a publication. -/
def publishEvents (budget : Nat) (path : String) (value : Json) (engine : Engine ς) :
    List (Event Line Json) :=
  engine.network.events budget [.script (publication path value)]

def publishAll (budget : Nat) : List (String × Json) → Engine ς → Option (Engine ς)
  | [], engine => some engine
  | (path, value) :: rest, engine =>
    match engine.publish budget path value with
    | some (after, _) => publishAll budget rest after
    | none => none

theorem publishAll_cons {engine last : Engine ς} {budget : Nat} {path : String} {value : Json}
    {values : List (String × Json)} :
    engine.publishAll budget ((path, value) :: values) = some last ↔
      ∃ middle audience, engine.publish budget path value = some (middle, audience) ∧
        middle.publishAll budget values = some last := by
  rw [publishAll]
  constructor
  · intro ends
    cases published : engine.publish budget path value with
    | none =>
      rw [published] at ends
      exact nomatch ends
    | some result =>
      rw [published] at ends
      exact ⟨result.1, result.2, rfl, ends⟩
  · rintro ⟨middle, audience, published, later⟩
    rw [published]
    exact later

/-- With every budget that is large enough, the publications lead from one engine to the other. -/
def Publishes (engine : Engine ς) (values : List (String × Json)) (after : Engine ς) : Prop :=
  ∃ least, ∀ budget, least ≤ budget → engine.publishAll budget values = some after

theorem Publishes.nil (engine : Engine ς) : engine.Publishes [] engine := ⟨0, fun _ _ => rfl⟩

theorem Publishes.unique {engine after after' : Engine ς} {values : List (String × Json)}
    (publishes : engine.Publishes values after) (publishes' : engine.Publishes values after') :
    after = after' := by
  obtain ⟨least, ends⟩ := publishes
  obtain ⟨least', ends'⟩ := publishes'
  exact Option.some.inj ((ends (max least least') (by omega)).symm.trans (ends' _ (by omega)))

/-- One publication, and others after it. -/
theorem Publishes.cons {engine middle last : Engine ς} {path : String} {value : Json}
    {values : List (String × Json)} (first : engine.Publishes [(path, value)] middle)
    (second : middle.Publishes values last) : engine.Publishes ((path, value) :: values) last := by
  obtain ⟨least, ends⟩ := first
  obtain ⟨least', ends'⟩ := second
  refine ⟨max least least', fun budget enough => ?_⟩
  obtain ⟨_, audience, published, same⟩ := publishAll_cons.mp (ends budget (by omega))
  obtain rfl := Option.some.inj same
  exact publishAll_cons.mpr ⟨_, audience, published, ends' budget (by omega)⟩

/-- What happens in several publications. -/
def publishAllEvents (budget : Nat) : List (String × Json) → Engine ς → List (Event Line Json)
  | [], _ => []
  | (path, value) :: rest, engine =>
    engine.publishEvents budget path value ++
      match engine.publish budget path value with
      | some (after, _) => publishAllEvents budget rest after
      | none => []

/-- What happens when a listener is attached to a stream. -/
def subscribeEvents {α : Type} (budget : Nat) (stream : BusStream α)
    (listener : α → PlantScript ς) (engine : Engine ς) : List (Event Line Json) :=
  engine.network.events budget [.script (.subscribe stream listener fun _ => .done)]

/-- The same engine over another network. -/
def withNetwork (engine : Engine ς) (network : PlantNetwork ς) : Engine ς :=
  { engine with network := network }

@[simp] theorem withNetwork_network (engine : Engine ς) (network : PlantNetwork ς) :
    (engine.withNetwork network).network = network := rfl

theorem withNetwork_self (engine : Engine ς) : engine.withNetwork engine.network = engine := rfl

variable {engine : Engine ς} {network : PlantNetwork ς} {events es : List (Event Line Json)}

/-- A run of a script is what performing the script does with a large budget. -/
theorem perform_of_run {script : PlantScript ς}
    (run : Run engine.network [.script script] es network []) :
    ∃ least, ∀ budget, least ≤ budget → engine.perform budget script = some (engine.withNetwork network) ∧
      engine.network.events budget [.script script] = es := by
  obtain ⟨least, ends⟩ := settle_of_run run
  refine ⟨least, fun budget enough => ?_⟩
  obtain ⟨settled, watched⟩ := ends budget enough
  refine ⟨?_, watched⟩
  rw [perform, Network.perform, settled]
  rfl

theorem publish_eq (budget : Nat) (path : String) (value : Json) (engine : Engine ς) :
    engine.publish budget path value = (engine.perform budget (publication path value)).map
      fun engine => (engine, engine.plant.audience) := rfl

theorem publish_of_run {path : String} {value : Json}
    (run : Run engine.network [.script (publication path value)] es network []) :
    ∃ least, ∀ budget, least ≤ budget →
      engine.publish budget path value = some (engine.withNetwork network, network.memory.audience) ∧
        engine.publishEvents budget path value = es := by
  obtain ⟨least, ends⟩ := perform_of_run run
  refine ⟨least, fun budget enough => ?_⟩
  obtain ⟨performed, watched⟩ := ends budget enough
  refine ⟨?_, watched⟩
  rw [publish_eq, performed]
  rfl

theorem subscribe_of_run {α : Type} {stream : BusStream α} {listener : α → PlantScript ς}
    (run : Run engine.network [.script (.subscribe stream listener fun _ => .done)] es network []) :
    ∃ least, ∀ budget, least ≤ budget →
      engine.subscribe budget stream listener =
          some (engine.withNetwork network, stream.handle engine.network.subscriptions.length) ∧
        engine.subscribeEvents budget stream listener = es := by
  obtain ⟨least, ends⟩ := perform_of_run run
  refine ⟨least, fun budget enough => ?_⟩
  obtain ⟨performed, watched⟩ := ends budget enough
  refine ⟨?_, watched⟩
  rw [subscribe, performed]
  rfl

/-- What a subscription does within a budget that suffices is a run. -/
theorem run_of_subscribe {α : Type} {budget : Nat} {stream : BusStream α}
    {listener : α → PlantScript ς} {engine after : Engine ς} {handle : Handle Line}
    (ends : engine.subscribe budget stream listener = some (after, handle)) :
    ∃ network, after = engine.withNetwork network ∧
      Run engine.network [.script (.subscribe stream listener fun _ => .done)]
        (engine.subscribeEvents budget stream listener) network [] := by
  obtain ⟨last, performed, same⟩ := Option.map_eq_some_iff.mp ends
  obtain ⟨network, settled, rfl⟩ := Option.map_eq_some_iff.mp performed
  exact ⟨network, (Prod.mk.inj same).1.symm, run_of_settle settled⟩

theorem run_of_publish {budget : Nat} {path : String} {value : Json} {engine after : Engine ς}
    {audience : Nat} (ends : engine.publish budget path value = some (after, audience)) :
    ∃ network, after = engine.withNetwork network ∧
      Run engine.network [.script (publication path value)] (engine.publishEvents budget path value)
        network [] := by
  obtain ⟨last, performed, same⟩ := Option.map_eq_some_iff.mp ends
  obtain ⟨network, settled, rfl⟩ := Option.map_eq_some_iff.mp performed
  exact ⟨network, (Prod.mk.inj same).1.symm, run_of_settle settled⟩

theorem touch_generation (bus : Bus) (path : String) :
    (bus.touch path).generation = bus.generation := by
  unfold Bus.touch
  split <;> rfl

theorem touchAll_generation (bus : Bus) (paths : List String) :
    (bus.touchAll paths).generation = bus.generation := by
  induction paths generalizing bus with
  | nil => rfl
  | cons path rest ih => exact (ih (bus.touch path)).trans (touch_generation bus path)

/-- What publishes at a path publishes on the line of the path. -/
theorem leads_publish (generation : Nat) (kind : ς → Prop) (path : String) (value : Json)
    {next : Nat → PlantScript ς} (quiet : ∀ n, (next n).Quiet (Within generation kind)) :
    (PlantScript.publish path value next).Leads (Within generation kind)
      ⟨generation, path⟩ value := by
  refine .record (.change ?_ (.consult fun plant here => ?_))
  · rintro plant ⟨here, kept⟩
    exact ⟨(touch_generation plant.bus path).trans here, kept⟩
  · have line : plant.bus.line path = ⟨generation, path⟩ := by
      rw [Bus.line, show plant.bus.generation = generation from here.1]
    rw [line]
    exact .publish quiet

theorem leads_publication (generation : Nat) (kind : ς → Prop) (path : String) (value : Json) :
    (publication path value : PlantScript ς).Leads (Within generation kind)
      ⟨generation, path⟩ value :=
  leads_publish generation kind path value fun _ => .change (fun _ here => here) .done

/-- What is left of a publication when its value has reached everybody. -/
def reports (audience : Nat) : PlantScript ς :=
  .change (fun plant => { plant with audience := audience }) .done

/-- Before its value sets out, a publication makes its path known. -/
theorem publication_begins {generation : Nat} {network : PlantNetwork ς}
    (here : InGeneration generation network.memory) (path : String) (value : Json) :
    ∃ ready, Run network [.script (publication path value)] [] ready
        [.script (.publish ⟨generation, path⟩ value reports)] ∧ network.Alike ready ∧
      ready.memory = { network.memory with bus := network.memory.bus.touch path } := by
  have line : (network.memory.bus.touch path).line path = ⟨generation, path⟩ := by
    rw [Bus.line, touch_generation, show network.memory.bus.generation = generation from here]
  rw [← line]
  exact ⟨_, .step rfl (.step rfl (.step rfl (.still _ _))), ⟨rfl, rfl⟩, rfl⟩

section Publications

variable {generation : Nat} {kind : ς → Prop}

/-- A publication takes a value to the listeners of its line. -/
theorem exists_publication (rest : AtRest (Within generation kind) events network) (path : String)
    (value : Json) :
    ∃ es after, Run network [.script (publication path value)] es after [] ∧
      AtRest (Within generation kind) (events ++ es) after ∧ Staying es ∧
      sent es = [(⟨generation, path⟩, value)] ∧
      after.subscriptions.length = network.subscriptions.length ∧
      ∀ n, feeds n es = feedsTo n value (network.subject ⟨generation, path⟩).listeners := by
  obtain ⟨ready, go, first, alike, kept, quiet⟩ :=
    run_leads (leads_publication generation kind path value) rest.passive.holds
  have passive := rest.passive.alike alike kept
  have still_idle : (ready.subject ⟨generation, path⟩).busy = false := by
    rw [subject_congr alike.subjects]
    exact rest.sound.idle _
  obtain ⟨es, after, second, still, length, passive', fed_to⟩ :=
    passive.publish value go still_idle quiet
  have run := first.trans second
  rw [List.nil_append] at run
  refine ⟨_, after, run, ⟨(rest.sound.script _).run run, passive'⟩, ?_, ?_, ?_, ?_⟩
  · intro registration member
    rcases List.mem_cons.mp member with same | member
    · exact nomatch same
    · rcases List.mem_cons.mp member with same | member
      · exact nomatch same
      · exact still _ member
  · simp [sent_cons, sent?, sent_still still]
  · rw [length, alike.subscriptions]
  · intro n
    rw [← subject_congr alike.subjects]
    exact fed_to n

/-- All publications take their values to the leaves of whoever attends. -/
theorem exists_publications (rest : AtRest (Within generation kind) events engine.network)
    (values : List (String × Json)) :
    ∃ least es after, AtRest (Within generation kind) (events ++ es) after ∧ Staying es ∧
      engine.network.Keeps after ∧
      after.subscriptions.length = engine.network.subscriptions.length ∧
      sent es = onLines generation values ∧
      (∀ (n : Nat) {α : Type} (stream : BusStream α) (past since : List (Event Line Json)),
        events = past ++ since → Attends n stream past since engine.network →
          feeds n es = (stream.visits (onLines generation values)).flatten) ∧
      ∀ budget, least ≤ budget →
        engine.publishAll budget values = some (engine.withNetwork after) ∧
          engine.publishAllEvents budget values = es := by
  induction values generalizing engine events with
  | nil =>
    exact ⟨0, [], engine.network, by simpa using rest, fun _ => List.not_mem_nil, .of_eq rfl, rfl,
      rfl, fun _ _ _ _ _ _ _ => rfl, fun _ _ => ⟨rfl, rfl⟩⟩
  | cons pair values ih =>
    obtain ⟨path, value⟩ := pair
    obtain ⟨es, middle, run, rest', staying, sent_es, length, fed_to⟩ :=
      exists_publication rest path value
    obtain ⟨least, ends⟩ := publish_of_run run
    have fresh : AtRest (Within generation kind) (events ++ es) (engine.withNetwork middle).network :=
      rest'
    obtain ⟨least', es', after, rest'', staying', keeps, length', sent_es', fed_later, ends'⟩ :=
      ih fresh
    refine ⟨max least least', es ++ es', after, ?_, staying.append staying', run.keeps.trans keeps,
      length'.trans length, ?_, fun n α stream past since split attends => ?_,
      fun budget enough => ?_⟩
    · rw [← List.append_assoc]
      exact rest''
    · rw [sent_append, sent_es, sent_es']
      rfl
    · have attends' : Attends n stream past (since ++ es) middle :=
        attends.keep run.keeps fun registration member => absurd member (staying registration)
      have later := fed_later n stream past (since ++ es) (by rw [split, List.append_assoc]) attends'
      have sound := rest.sound
      rw [split] at sound
      rw [feeds_append, later, fed_to n, attends.feedsTo_eq sound]
      rfl
    · obtain ⟨published, watched⟩ := ends budget (by omega)
      obtain ⟨published', watched'⟩ := ends' budget (by omega)
      rw [Engine.publishAll, Engine.publishAllEvents, published, watched]
      exact ⟨published', congrArg (es ++ ·) watched'⟩

end Publications

/-- A network at rest in which all listeners are quiet, and the events that have led to it. -/
structure Calm (generation : Nat) (kind : ς → Prop) (events : List (Event Line Json))
    (network : PlantNetwork ς) : Prop where
  sound : Sound events network []
  passive : Passive (Within generation kind) network
  staying : Staying events

namespace Calm

variable {generation : Nat} {kind : ς → Prop}

theorem start {remembered : ς} (here : kind remembered) :
    Calm 0 kind [] (Network.start (Plant.start remembered) : PlantNetwork ς) := by
  have done : Run (Network.start (Plant.start remembered) : PlantNetwork ς) [.script .done] []
      (Network.start (Plant.start remembered)) [] :=
    .step rfl (.still _ _)
  exact ⟨(Sound.start _ _).run done, ⟨nofun, rfl, here⟩, fun _ => List.not_mem_nil⟩

/-- What happens next in a run that attaches nothing but at most one new subscription. -/
theorem next {script : PlantScript ς} {after : PlantNetwork ς} (calm : Calm generation kind events network)
    (run : Run network [.script script] es after [])
    (passive : Passive (Within generation kind) after) (staying : Staying es) :
    Calm generation kind (events ++ es) after :=
  ⟨(calm.sound.script script).run run, passive, calm.staying.append staying⟩

theorem rest (calm : Calm generation kind events network) :
    AtRest (Within generation kind) events network :=
  ⟨calm.sound, calm.passive⟩

theorem publish (calm : Calm generation kind events network) (path : String) (value : Json) :
    ∃ es after, Run network [.script (publication path value)] es after [] ∧
      Calm generation kind (events ++ es) after ∧ sent es = [(⟨generation, path⟩, value)] ∧
      after.subscriptions.length = network.subscriptions.length ∧
      ∀ n, feeds n es = feedsTo n value (network.subject ⟨generation, path⟩).listeners := by
  obtain ⟨es, after, run, rest, staying, sent_es, length, fed_to⟩ :=
    exists_publication calm.rest path value
  exact ⟨es, after, run, calm.next run rest.passive staying, sent_es, length, fed_to⟩

theorem publishAll (calm : Calm generation kind events engine.network)
    (values : List (String × Json)) :
    ∃ least es after, Calm generation kind (events ++ es) after ∧ engine.network.Keeps after ∧
      after.subscriptions.length = engine.network.subscriptions.length ∧
      sent es = onLines generation values ∧ ∀ budget, least ≤ budget →
        engine.publishAll budget values = some (engine.withNetwork after) ∧
          engine.publishAllEvents budget values = es := by
  obtain ⟨least, es, after, rest, staying, keeps, length, sent_es, _, ends⟩ :=
    exists_publications calm.rest values
  exact ⟨least, es, after, ⟨rest.sound, rest.passive, calm.staying.append staying⟩, keeps, length,
    sent_es, ends⟩

theorem subscribe (calm : Calm generation kind events network) {α : Type} (stream : BusStream α)
    {listener : α → PlantScript ς} (quiet : ∀ a, (listener a).Quiet (Within generation kind)) :
    ∃ es after, Run network [.script (.subscribe stream listener fun _ => .done)] es after [] ∧
      Calm generation kind (events ++ es) after ∧ (∀ e ∈ es, e.Still) ∧
      after.subscriptions.length = network.subscriptions.length + 1 ∧
      ∃ state, after.subscriptions[network.subscriptions.length]? =
        some ⟨stream, state, listener⟩ := by
  obtain ⟨es, after, run, still, passive, length, there, _⟩ :=
    calm.passive.subscribe stream quiet fun _ => .done
  have all_still : ∀ e ∈ .subscribed network.subscriptions.length :: es, e.Still :=
    List.forall_mem_cons.mpr ⟨trivial, still⟩
  exact ⟨_, after, run, calm.next run passive (.of_still all_still), all_still, length, there⟩

end Calm

end Engine

end Switchboard
