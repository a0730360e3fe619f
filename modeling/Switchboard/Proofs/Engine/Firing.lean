import Switchboard.Proofs.Engine.Evaluation
import Switchboard.Proofs.Engine.Midway
import Switchboard.Proofs.Engine.Starting

/-!
# Which actions are fired

Where the sink reports nothing back, a firing rule publishes nothing, and so a
publication from outside is the only thing that happens while it is being
processed. The actions that a rule fires meanwhile are right for the bits that
its operands have halfway. They need not be right for the bits in the end,
unless one operand at most reads the path.
-/
namespace Switchboard

open Event Network

/-- A sink that reports nothing back on the bus, as long as it remembers something of a kind. -/
structure Sink.Silent {ς : Type} (sink : Sink ς) (kind : ς → Prop) : Prop where
  stays : ∀ remembered, kind remembered →
    ∀ delivery, kind (sink.offer remembered delivery).1
  no_echo : ∀ remembered, kind remembered →
    ∀ delivery response, (sink.offer remembered delivery).2 ≠ .taken response true

theorem Outlet.silent : Outlet.sink.Silent fun outlet => outlet.loopback = false := by
  constructor
  · intro outlet off delivery
    show (outlet.offer delivery).1.loopback = false
    unfold Outlet.offer
    split <;> exact off
  · intro outlet off delivery response
    show (outlet.offer delivery).2 ≠ _
    unfold Outlet.offer Outlet.answer
    rw [off]
    split <;> simp

namespace Drive

variable {ς : Type} {generation : Nat} {kind : ς → Prop}

theorem quiet_deliver (drive : Drive) {sink : Sink ς} (silent : sink.Silent kind) (value : Json) :
    (drive.deliver sink value).Quiet (Within generation kind) := by
  refine .record (.consult fun plant here => .change (fun _ now => ?_) ?_)
  · exact ⟨now.1, silent.stays _ here.2 _⟩
  have no_echo := silent.no_echo plant.sink here.2 (drive.delivery value)
  generalize (sink.offer plant.sink (drive.delivery value)).2 = answer at no_echo ⊢
  cases answer with
  | refused reason => exact drive.quiet_noteAnswer _
  | taken response echo =>
    cases echo with
    | false =>
      refine .record ?_
      unfold PlantScript.acknowledge
      split
      · exact (drive.quiet_noteAnswer _).followedBy .done
      · exact drive.quiet_noteAnswer _
    | true => exact absurd rfl (no_echo response)

theorem quiet_writeLog (drive : Drive) (action : Action) (outcome : String) {next : PlantScript ς}
    (quiet : next.Quiet (Within generation kind)) :
    (drive.writeLog action outcome next).Quiet (Within generation kind) := by
  unfold writeLog
  split
  · exact .record quiet
  · exact quiet

/-- Where the sink is silent, a rule that fires is quiet. -/
theorem quiet_fire (drive : Drive) {sink : Sink ς} (silent : sink.Silent kind) (action : Action) :
    (drive.fire sink action).Quiet (Within generation kind) := by
  refine .record (.change (fun _ here => here) ?_)
  split
  · rename_i value _
    refine .change (fun _ here => here) (drive.quiet_writeLog _ _ ?_)
    cases value with
    | none => exact .record .done
    | some value => exact drive.quiet_deliver silent value
  · exact .record (drive.quiet_writeLog _ _ (.change (fun _ here => here) .done))

end Drive

namespace Engine

variable {ς : Type}

/-- The actions that a rule fires in a publication, with every budget that is large enough. -/
def Fires (engine : Engine ς) (rule : Nat) (path : String) (value : Json)
    (actions : List Action) : Prop :=
  ∃ least, ∀ budget, least ≤ budget →
    calls rule (engine.publishEvents budget path value) = actions.map (Sigma.mk Action)

/-- A rule with a circuit at work: the last bits of its operands and of its output. -/
def Works (engine : Engine ς) (rule : Nat) (circuit : Circuit) (bits : List (Option Bool))
    (output : Option Bool) : Prop :=
  ∃ state, ∃ drive : Drive, drive.output = circuit.output ∧
    engine.network.subscriptions[rule]? = some ⟨circuit.actions, state, drive.fire engine.sink⟩ ∧
    circuit.operandBits state = bits ∧ circuit.outputBit state = output

theorem Works.unique {engine : Engine ς} {rule : Nat} {circuit : Circuit}
    {bits bits' : List (Option Bool)} {output output' : Option Bool}
    (works : engine.Works rule circuit bits output)
    (works' : engine.Works rule circuit bits' output') : bits = bits' ∧ output = output' := by
  obtain ⟨state, drive, _, stands, rfl, rfl⟩ := works
  obtain ⟨state', drive', _, stands', rfl, rfl⟩ := works'
  obtain rfl : state = state' := by
    injection Option.some.inj (stands.symm.trans stands')
  exact ⟨rfl, rfl⟩

/-- An engine at rest over a silent sink, with rules for some circuits. -/
structure Resting (sink : Sink ς) (kind : ς → Prop) (engine : Engine ς) (circuits : List Circuit) : Prop where
  same_sink : engine.sink = sink
  calm : ∃ events, Calm 0 kind events engine.network
  wired : Wired sink engine.network circuits

namespace Resting

variable {sink : Sink ς} {kind : ς → Prop} {engine after : Engine ς} {circuits : List Circuit}

theorem aside (resting : Resting sink kind engine circuits) (still : engine.Aside after) :
    Resting sink kind after circuits := by
  obtain ⟨events, calm⟩ := resting.calm
  have holds : Within 0 kind after.network.memory := by
    refine ⟨still.generation.trans calm.passive.holds.1, ?_⟩
    rw [show after.network.memory.sink = _ from still.remembered]
    exact calm.passive.holds.2
  refine ⟨still.sink.trans resting.same_sink, ⟨events, ?_, ?_, calm.staying⟩, ?_⟩
  · exact calm.sound.congr still.alike.subjects still.alike.subscriptions
  · exact calm.passive.alike still.alike holds
  · exact resting.wired.keeps (.of_eq still.alike.subscriptions)
      (by rw [still.alike.subscriptions])

theorem subscribe (resting : Resting sink kind engine circuits) (silent : sink.Silent kind)
    (circuit : Circuit) (drive : Drive) (output : drive.output = circuit.output) :
    ∃ least after handle, Resting sink kind after (circuits ++ [circuit]) ∧ ∀ budget, least ≤ budget →
      engine.subscribe budget circuit.actions (drive.fire engine.sink) = some (after, handle) := by
  obtain ⟨events, calm⟩ := resting.calm
  have quiet (action : Action) : (drive.fire engine.sink action).Quiet (Within 0 kind) := by
    rw [resting.same_sink]
    exact drive.quiet_fire silent action
  obtain ⟨es, after, run, calm', _, length, state, there⟩ := calm.subscribe circuit.actions quiet
  obtain ⟨least, ends⟩ := subscribe_of_run run
  rw [resting.same_sink] at there
  refine ⟨least, engine.withNetwork after, _, ⟨resting.same_sink, ⟨_, calm'⟩, ?_⟩,
    fun budget enough => (ends budget enough).1⟩
  exact resting.wired.snoc run.keeps length output there

theorem publishAll (resting : Resting sink kind engine circuits) (values : List (String × Json)) :
    ∃ after, engine.Publishes values after ∧ Resting sink kind after circuits ∧
      after.active = engine.active ∧ after.running = engine.running := by
  obtain ⟨events, calm⟩ := resting.calm
  obtain ⟨least, es, after, calm', keeps, length, _, ends⟩ := calm.publishAll values
  exact ⟨engine.withNetwork after, ⟨least, fun budget enough => (ends budget enough).1⟩,
    ⟨resting.same_sink, ⟨_, calm'⟩, resting.wired.keeps keeps length⟩, rfl, rfl⟩

/--
An action that a rule fires in a publication is one for which the truth value of its input changes
halfway, or is what it is in the end; if at most one operand reads the path, it is the latter.
-/
theorem fires (resting : Resting sink kind engine circuits) (path : String) (value : Json) :
    ∃ last, engine.Publishes [(path, value)] last ∧
      ∀ (n : Nat) (circuit : Circuit), circuits[n]? = some circuit →
        ∃ old new output output' actions, engine.Works n circuit old output ∧
          last.Works n circuit new output' ∧ engine.Fires n path value actions ∧
          ∀ action ∈ actions,
            ((∃ k, circuit.input.midway old new k ≠ some action.isOn ∧
                circuit.input.midway old new (k + 1) = some action.isOn) ∨
              circuit.input.valueOn new = some action.isOn) ∧
            (circuit.input.ReadsOnce path → circuit.input.valueOn new = some action.isOn) := by
  obtain ⟨events, calm⟩ := resting.calm
  obtain ⟨es, last, run, calm', _, _, taken⟩ := calm.publish path value
  obtain ⟨least, ends⟩ := publish_of_run run
  refine ⟨engine.withNetwork last, ⟨least, fun budget enough => ?_⟩, ?_⟩
  · simp only [Engine.publishAll, (ends budget enough).1]
  intro n circuit here
  obtain ⟨state, drive, output, there⟩ := resting.wired.circuit n circuit here
  rw [← resting.same_sink] at there
  obtain ⟨state', there'⟩ := run.keeps n _ there
  have before := calm.sound.recorded.state n _ there
  have after := calm'.sound.recorded.state n _ there'
  have called := calm.sound.recorded.calls n _ there
  have called' := calm'.sound.recorded.calls n _ there'
  let listeners := (engine.network.subject ⟨0, path⟩).listeners.filter (·.1 = n)
  have swept : feeds n (events ++ es) = feeds n events ++ sweep value (listeners.map Prod.snd) := by
    rw [feeds_append, taken n, feedsTo, sweep, List.map_map]
    rfl
  have ordered : (listeners.map Prod.snd).Pairwise (· < ·) := by
    refine List.pairwise_map.mpr ?_
    have in_order := (calm.sound.accounted.ordered ⟨0, path⟩).filter (·.1 = n)
    refine in_order.imp_of_mem fun first second order => order ?_
    have one := (List.mem_filter.mp first).2
    have two := (List.mem_filter.mp second).2
    simp only [decide_eq_true_eq] at one two
    rw [one, two]
  have subjects : ∀ leaf ∈ listeners.map Prod.snd,
      circuit.actions.leaves[leaf]? = some (.subject (Bus.empty.line path)) := by
    intro leaf listed
    obtain ⟨⟨m, l⟩, found, rfl⟩ := List.mem_map.mp listed
    have member := (List.mem_filter.mp found).1
    obtain rfl : m = n := by simpa using (List.mem_filter.mp found).2
    have line := (calm.sound.accounted.listening ⟨0, path⟩ m l).mp member
    have place := calm.sound.accounted.place ⟨0, path⟩ m l line
    rw [leafAt, there] at place
    exact place
  have signals : ∀ leaf ∈ listeners.map Prod.snd, circuit.actions.leaves[leaf]? ≠ some .own := by
    intro leaf listed own
    rw [subjects leaf listed] at own
    cases own
  rw [swept] at after called'
  obtain ⟨actions, emitted⟩ :=
    circuit.actions.course_grows (feeds n events) (sweep value (listeners.map Prod.snd))
  have fired : calls n es = actions.map (Sigma.mk Action) := by
    rw [emitted, List.map_append, calls_append, called] at called'
    exact List.append_cancel_left called'
  refine ⟨_, _, _, _, actions, ⟨state, drive, output, there, rfl, rfl⟩,
    ⟨state', drive, output, there', rfl, rfl⟩,
    ⟨least, fun budget enough => by rw [(ends budget enough).2, fired]⟩, ?_⟩
  intro action member
  have old_bits : circuit.operandBits state = circuit.bitsAfter (feeds n events) :=
    (congrArg circuit.operandBits before).trans (circuit.operandBits_course _)
  have new_bits : circuit.operandBits state' =
      circuit.bitsAfter (feeds n events ++ sweep value (listeners.map Prod.snd)) :=
    (congrArg circuit.operandBits after).trans (circuit.operandBits_course _)
  rw [old_bits, new_bits]
  exact ⟨circuit.actions_midway _ value ordered signals emitted member,
    fun once => circuit.actions_once _ value ordered subjects once emitted member⟩

end Resting

namespace Flicker

/-- A rule whose input is true at most while a value is on its way. -/
def config : EngineConfig := ⟨[], [⟨none, some "p and not p", some "o", none, false, true⟩]⟩

def circuit : Circuit where
  input := .conjunction (.negation (.operand (.signal "p" .present))) (.operand (.signal "p" .present))
  output := .signal "o" .present

def fresh : Engine Outlet := .new Outlet.sink (.limited none "" false) none

def ready : Engine Outlet := (fresh.publishAll 100 [("p", .int 1)]).getD fresh

def started : Engine Outlet := ((ready.start 100 config).map Prod.fst).getD ready

def last : Engine Outlet := (started.publishAll 100 [("p", .int 0)]).getD started

/-- What the rule remembers in the end. -/
def state : circuit.actions.State :=
  let operand : Option Bool × Bool × Unit := (some false, true, ())
  let input : (Option Bool × Option Bool) × (Option Bool × Bool × Unit) ×
    (Option Bool × Bool × Unit) := ((some true, some false), operand, operand)
  let output : Option Bool × Bool × Unit := (some false, false, ())
  show (Option Bool × Option Bool) × (Option Bool × (Option Bool × Option Bool) ×
    (Option Bool × Bool × Unit) × (Option Bool × Bool × Unit)) × (Option Bool × Bool × Unit) from
  ((some false, some false), (some false, input), output)

theorem starts_started : ready.Starts config started := by
  refine ⟨100, .ok ⟨["p and not p => o"], [], []⟩, fun budget enough => ?_⟩
  obtain ⟨more, rfl⟩ := Nat.exists_eq_add_of_le' enough
  rfl

theorem publishes_last : started.Publishes [("p", .int 0)] last := by
  refine ⟨100, fun budget enough => ?_⟩
  obtain ⟨more, rfl⟩ := Nat.exists_eq_add_of_le' enough
  rfl

end Flicker

end Engine

end Switchboard
