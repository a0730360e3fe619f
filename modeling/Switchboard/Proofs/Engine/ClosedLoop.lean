import Switchboard.Proofs.Engine.Budget
import Switchboard.Proofs.Engine.Convergence
import Switchboard.Proofs.Engine.Updates

/-!
# An engine that closes the loop

The engine's sink reports back all that it takes. While its rules are being
started there is a closed loop of those that are there already; the next one
joins it without having been fed, and only then its leaves are opened. So the
loop is at rest and in agreement between any two operations from outside.
-/
namespace Switchboard

open Event Network

theorem getElem?_of_start {α : Type} {some_first all : List α} (start : some_first <+: all)
    {n : Nat} {a : α} (here : some_first[n]? = some a) : all[n]? = some a := by
  obtain ⟨rest, rfl⟩ := start
  rw [List.getElem?_append_left (List.getElem?_eq_some_iff.mp here).1]
  exact here

/-- Some first circuits of layered ones are layered. -/
theorem Layered.first {circuits all : List Circuit} {rank : Nat → Nat} (layered : Layered all rank)
    (start : circuits <+: all) : Layered circuits rank := by
  constructor
  · intro circuit member
    exact layered.settable circuit (start.subset member)
  · intro i j c d at_i at_j same
    exact layered.apart i j c d (getElem?_of_start start at_i) (getElem?_of_start start at_j) same
  · exact layered.ranked
  · intro i j c d at_i at_j term operand reads
    exact layered.below i j c d (getElem?_of_start start at_i) (getElem?_of_start start at_j) term
      operand reads

namespace Loop

variable {ς : Type} {loop : Loop ς} {fed : Feeds} {network : PlantNetwork ς}

/-- One more circuit in a loop. -/
def extended (loop : Loop ς) (circuit : Circuit)
    (layered : Layered (loop.circuits ++ [circuit]) loop.rank) : Loop ς where
  sink := loop.sink
  kind := loop.kind
  circuits := loop.circuits ++ [circuit]
  rank := loop.rank
  echoing := loop.echoing
  layered := layered

/-- A rule that has not been fed yet joins the loop. -/
theorem Settled.join_unfed (settled : loop.Settled 0 fed network) {circuit : Circuit}
    (layered : Layered (loop.circuits ++ [circuit]) loop.rank)
    (length : network.subscriptions.length = loop.circuits.length) {drive : Drive}
    (output : drive.output = circuit.output)
    (idle : (network.subject circuit.outLine).busy = false) :
    (loop.extended circuit layered).Settled 0 (Function.update fed loop.circuits.length [])
      { network with subscriptions := network.subscriptions ++
          [⟨circuit.actions, circuit.actions.initial, drive.fire loop.sink⟩] } := by
  have split {n : Nat} {other : Circuit} (here : (loop.circuits ++ [circuit])[n]? = some other) :
      (loop.circuits[n]? = some other ∧ n ≠ loop.circuits.length) ∨
        n = loop.circuits.length ∧ other = circuit := by
    rw [List.getElem?_append] at here
    split at here
    · exact .inl ⟨here, by omega⟩
    · obtain ⟨first, rfl⟩ := List.getElem?_eq_some_iff.mp here
      rw [List.length_singleton] at first
      exact .inr ⟨by omega, by simp⟩
  have old {n : Nat} (before : n ≠ loop.circuits.length) :
      Function.update fed loop.circuits.length [] n = fed n :=
    Function.update_of_ne before ..
  have new : Function.update fed loop.circuits.length [] loop.circuits.length = [] :=
    Function.update_self ..
  refine ⟨⟨settled.running.holds, ?_, ?_, ?_⟩, ?_, ?_⟩
  · intro n other here
    rcases split here with ⟨there, before⟩ | ⟨rfl, rfl⟩
    · obtain ⟨drive', output', stands⟩ := settled.running.stands n other there
      refine ⟨drive', output', ?_⟩
      rw [old before, List.getElem?_append_left (List.getElem?_eq_some_iff.mp stands).1]
      exact stands
    · refine ⟨drive, output, ?_⟩
      rw [new, ← length, List.getElem?_append_right (Nat.le_refl _), Nat.sub_self]
      rfl
  · intro line n leaf listening
    obtain ⟨other, there, leaf_at⟩ := settled.running.place line n leaf listening
    exact ⟨other, getElem?_of_start (List.prefix_append ..) there, leaf_at⟩
  · intro n other here
    rcases split here with ⟨there, before⟩ | ⟨rfl, rfl⟩
    · rw [old before]
      exact settled.running.heard n other there
    · rw [new]
      exact .inl other.shown_nil
  · intro n other here high
    rcases split here with ⟨there, before⟩ | ⟨rfl, rfl⟩
    · exact settled.idle n other there high
    · exact idle
  · intro n other here high
    rcases split here with ⟨there, before⟩ | ⟨rfl, rfl⟩
    · rw [old before]
      exact settled.agrees n other there high
    · rw [new]
      exact other.agrees_of_shown other.shown_nil

/-- A rule is subscribed. -/
theorem Settled.subscribe (settled : loop.Settled 0 fed network) {circuit : Circuit}
    (layered : Layered (loop.circuits ++ [circuit]) loop.rank)
    (length : network.subscriptions.length = loop.circuits.length) {drive : Drive}
    (output : drive.output = circuit.output)
    (idle : (network.subject circuit.outLine).busy = false) :
    ∃ next fed', network.Reaches
        [.script (.subscribe circuit.actions (drive.fire loop.sink) fun _ => .done)] next [] ∧
      (loop.extended circuit layered).Settled 0 fed' next ∧
      next.subscriptions.length = loop.circuits.length + 1 := by
  have joined := settled.join_unfed layered length output idle
  have here : (loop.extended circuit layered).circuits[loop.circuits.length]? = some circuit :=
    List.getElem?_concat_length
  have whole : circuit.actions.leaves.drop 0 = circuit.actions.leaves := rfl
  obtain ⟨next, fed', opens, settled', length'⟩ :=
    opening here .done whole joined (fun passed => nomatch passed)
  refine ⟨next, fed', ?_, settled', ?_⟩
  · rw [← length] at opens
    exact (Reaches.of_step rfl).trans (opens.trans (.of_step rfl))
  · rw [length', List.length_append, length]
    rfl

end Loop

namespace Engine

variable {ς : Type}

/-- An engine at rest that closes the loop over some circuits, all of which agree. -/
structure Looping (sink : Sink ς) (kind : ς → Prop) (rank : Nat → Nat) (engine : Engine ς)
    (circuits : List Circuit) : Prop where
  same_sink : engine.sink = sink
  sound : ∃ events, Sound events engine.network []
  length : engine.network.subscriptions.length = circuits.length
  settled : ∃ (echoing : sink.Echoing kind) (layered : Layered circuits rank) (fed : Feeds),
    Loop.Settled ⟨sink, kind, circuits, rank, echoing, layered⟩ 0 fed engine.network

namespace Looping

variable {sink : Sink ς} {kind : ς → Prop} {rank : Nat → Nat} {engine after : Engine ς}
variable {circuits : List Circuit}

theorem start (echoing : sink.Echoing kind) (layered : Layered [] rank) {remembered : ς}
    (here : kind remembered) (logs : Option RuleLog.Site) :
    Looping sink kind rank (Engine.new sink remembered logs) [] := by
  have calm := Calm.start here
  refine ⟨rfl, ⟨[], calm.sound⟩, rfl, echoing, layered, fun _ => [], ?_⟩
  exact ⟨⟨calm.passive.holds, nofun, nofun, nofun⟩, nofun, nofun⟩

theorem idle (looping : Looping sink kind rank engine circuits) (line : Line) :
    (engine.network.subject line).busy = false := by
  obtain ⟨events, sound⟩ := looping.sound
  exact sound.idle line

theorem generation (looping : Looping sink kind rank engine circuits) :
    engine.plant.bus.generation = 0 := by
  obtain ⟨_, _, _, settled⟩ := looping.settled
  exact settled.running.holds.1

/-- What a run of a script leads to that leaves the loop settled. -/
theorem next (looping : Looping sink kind rank engine circuits) {script : PlantScript ς}
    {network : PlantNetwork ς} (reaches : engine.network.Reaches [.script script] network [])
    {more : List Circuit} (length : network.subscriptions.length = more.length)
    (settled : ∃ (echoing : sink.Echoing kind) (layered : Layered more rank) (fed : Feeds),
      Loop.Settled ⟨sink, kind, more, rank, echoing, layered⟩ 0 fed network) :
    Looping sink kind rank (engine.withNetwork network) more := by
  obtain ⟨events, sound⟩ := looping.sound
  obtain ⟨es, run⟩ := reaches
  exact ⟨looping.same_sink, ⟨_, (sound.script script).run run⟩, length, settled⟩

theorem aside (looping : Looping sink kind rank engine circuits) (still : engine.Aside after) :
    Looping sink kind rank after circuits := by
  obtain ⟨events, sound⟩ := looping.sound
  obtain ⟨echoing, layered, fed, settled⟩ := looping.settled
  have holds : Within 0 kind after.network.memory := by
    refine ⟨still.generation.trans settled.running.holds.1, ?_⟩
    rw [show after.network.memory.sink = _ from still.remembered]
    exact settled.running.holds.2
  refine ⟨still.sink.trans looping.same_sink, ⟨events, ?_⟩, ?_, echoing, layered, fed, ?_⟩
  · exact sound.congr still.alike.subjects still.alike.subscriptions
  · rw [still.alike.subscriptions]
    exact looping.length
  · exact settled.alike still.alike holds

theorem subscribe (looping : Looping sink kind rank engine circuits) (circuit : Circuit)
    (drive : Drive) (layered' : Layered (circuits ++ [circuit]) rank)
    (output : drive.output = circuit.output) :
    ∃ least after handle, Looping sink kind rank after (circuits ++ [circuit]) ∧
      ∀ budget, least ≤ budget →
        engine.subscribe budget circuit.actions (drive.fire engine.sink) = some (after, handle) := by
  obtain ⟨echoing, layered, fed, settled⟩ := looping.settled
  obtain ⟨network, fed', reaches, settled', length⟩ :=
    settled.subscribe layered' looping.length output (looping.idle _)
  rw [looping.same_sink]
  have looping' : Looping sink kind rank (engine.withNetwork network) (circuits ++ [circuit]) := by
    refine looping.next reaches ?_ ⟨echoing, layered', fed', settled'⟩
    rw [length, List.length_append, List.length_singleton]
  obtain ⟨es, run⟩ := reaches
  obtain ⟨least, ends⟩ := subscribe_of_run run
  exact ⟨least, _, _, looping', fun budget enough => (ends budget enough).1⟩

theorem publish (looping : Looping sink kind rank engine circuits) (path : String) (value : Json) :
    ∃ least network, Looping sink kind rank (engine.withNetwork network) circuits ∧
      ∀ budget, least ≤ budget → ∃ audience,
        engine.publish budget path value = some (engine.withNetwork network, audience) := by
  obtain ⟨echoing, layered, fed, settled⟩ := looping.settled
  obtain ⟨ready, go, first, alike, kept, quiet⟩ :=
    run_leads (leads_publication 0 kind path value) settled.running.holds
  have still_idle : (ready.subject ⟨0, path⟩).busy = false := by
    rw [subject_congr alike.subjects]
    exact looping.idle _
  obtain ⟨network, fed', second, settled', length⟩ :=
    Loop.publish ⟨0, path⟩ (settled.alike alike kept) still_idle quiet
  have reaches : engine.network.Reaches [.script (publication path value)] network [] :=
    Reaches.trans ⟨_, first⟩ second
  have looping' : Looping sink kind rank (engine.withNetwork network) circuits := by
    refine looping.next reaches ?_ ⟨echoing, layered, fed', settled'⟩
    rw [length, alike.subscriptions]
    exact looping.length
  obtain ⟨es, run⟩ := reaches
  obtain ⟨least, ends⟩ := publish_of_run run
  exact ⟨least, network, looping', fun budget enough => ⟨_, (ends budget enough).1⟩⟩

theorem publishAll (looping : Looping sink kind rank engine circuits)
    (values : List (String × Json)) :
    ∃ after, engine.Publishes values after ∧ Looping sink kind rank after circuits ∧
      after.active = engine.active ∧ after.running = engine.running := by
  induction values generalizing engine with
  | nil => exact ⟨engine, .nil engine, looping, rfl, rfl⟩
  | cons first rest ih =>
    obtain ⟨path, value⟩ := first
    obtain ⟨least, network, looping', ends⟩ := looping.publish path value
    obtain ⟨after, ⟨least', ends'⟩, looping'', active, running⟩ := ih looping'
    refine ⟨after, ⟨max least least', fun budget enough => ?_⟩, looping'', active, running⟩
    obtain ⟨audience, published⟩ := ends budget (by omega)
    rw [Engine.publishAll, published]
    exact ends' budget (by omega)

/-- A rule at work agrees. -/
theorem works (looping : Looping sink kind rank engine circuits) {n : Nat} {circuit : Circuit}
    (here : circuits[n]? = some circuit) :
    ∃ bits output, engine.Works n circuit bits output ∧
      ∀ i o, circuit.input.valueOn bits = some i → output = some o → o = i := by
  obtain ⟨echoing, layered, fed, settled⟩ := looping.settled
  obtain ⟨drive, output, stands⟩ := settled.running.stands n circuit here
  let state := (circuit.actions.course (fed n)).1
  refine ⟨circuit.bitsAfter (fed n), circuit.shown (fed n), ⟨state, drive, output, ?_, ?_, ?_⟩, ?_⟩
  · rw [looping.same_sink]
    exact stands
  · exact circuit.operandBits_course (fed n)
  · exact circuit.outputBit_course (fed n)
  · exact settled.agrees n circuit here (Nat.zero_le _)

end Looping

/--
Over a sink that reports everything back, with outputs that are read back as they are set, one rule
at most for each, and no output that depends on itself: the engine starts, every publication comes
to its end, and then every rule's output is what its input is, if both have a bit.
-/
theorem output_follows_input {kind : ς → Prop} {sink : Sink ς} (echoing : sink.Echoing kind)
    {remembered : ς} (here : kind remembered) (logs : Option RuleLog.Site) (config : EngineConfig)
    {rank : Nat → Nat} (layered : Layered config.circuits rank)
    (before after : List (String × Json)) :
    ∃ ready started engine,
      (Engine.new sink remembered logs).Publishes before ready ∧ ready.Starts config started ∧
      started.Publishes after engine ∧
      ∀ (n : Nat) (rule : ActiveRule), started.active[n]? = some rule →
        ∃ circuit bits output, rule.Follows circuit ∧ engine.Works n circuit bits output ∧
          ∀ i o, circuit.input.valueOn bits = some i → output = some o → o = i := by
  have fresh := Looping.start echoing (layered.first (List.nil_prefix ..)) here logs
  obtain ⟨ready, published, looping, none_active, idle⟩ := fresh.publishAll before
  obtain ⟨started, starts, looping', follows⟩ := start_keeps config (Looping sink kind rank)
    (fun looping => looping.generation) (fun still looping => looping.aside still)
    (fun circuit drive start output looping =>
      looping.subscribe circuit drive (layered.first start) output)
    idle none_active looping
  obtain ⟨engine, published', looping'', _, _⟩ := looping'.publishAll after
  refine ⟨ready, started, engine, published, starts, published', ?_⟩
  intro n rule active
  obtain ⟨circuit, at_n, follows⟩ := follows_at follows active
  obtain ⟨bits, output, works, agrees⟩ := looping''.works at_n
  exact ⟨circuit, bits, output, follows, works, agrees⟩

namespace Cascade

/-- Two rules, of which the second reads the output of the first. -/
def config : EngineConfig :=
  ⟨[], [⟨none, some "p", some "m", none, false, true⟩,
    ⟨none, some "m and not q", some "o", none, false, true⟩]⟩

def first : Circuit := ⟨.operand (.signal "p" .present), .signal "m" .present⟩

def second : Circuit where
  input := .conjunction (.negation (.operand (.signal "q" .present))) (.operand (.signal "m" .present))
  output := .signal "o" .present

theorem circuits_eq : config.circuits = [first, second] := rfl

theorem layered : Layered config.circuits id := by
  rw [circuits_eq]
  have cases_of {n : Nat} {circuit : Circuit} (here : [first, second][n]? = some circuit) :
      n = 0 ∧ circuit = first ∨ n = 1 ∧ circuit = second := by
    match n with
    | 0 => exact .inl ⟨rfl, (Option.some.inj here).symm⟩
    | 1 => exact .inr ⟨rfl, (Option.some.inj here).symm⟩
    | _ + 2 => exact nomatch here
  constructor
  · intro circuit member
    have one_of : circuit = first ∨ circuit = second := by simpa using member
    rcases one_of with rfl | rfl
    · trivial
    · trivial
  · intro i j c d at_i at_j same
    rcases cases_of at_i with ⟨rfl, rfl⟩ | ⟨rfl, rfl⟩ <;>
      rcases cases_of at_j with ⟨rfl, rfl⟩ | ⟨rfl, rfl⟩ <;>
        revert same <;> decide
  · exact Function.injective_id
  · intro i j c d at_i at_j
    rcases cases_of at_i with ⟨rfl, rfl⟩ | ⟨rfl, rfl⟩ <;>
      rcases cases_of at_j with ⟨rfl, rfl⟩ | ⟨rfl, rfl⟩ <;> decide

end Cascade

theorem output_follows_through_cascade : ∃ ready started engine,
    (Engine.new Outlet.sink (.limited none "" true) none).Publishes [("q", .int 0)] ready ∧
      ready.Starts Cascade.config started ∧
      started.Publishes [("p", .int 1), ("m", .int 0), ("q", .int 1)] engine ∧
      ∀ (n : Nat) (rule : ActiveRule), started.active[n]? = some rule →
        ∃ circuit bits output, rule.Follows circuit ∧ engine.Works n circuit bits output ∧
          ∀ i o, circuit.input.valueOn bits = some i → output = some o → o = i :=
  output_follows_input Outlet.echoing ⟨rfl, rfl, rfl⟩ none Cascade.config Cascade.layered _ _

namespace Lookalike

/-- A substitution for values that differ, though the text of the one stands for the other. -/
def config : EngineConfig :=
  ⟨[], [⟨none, some "p", some "o:3e+23:30e22", none, false, true⟩]⟩

def circuit : Circuit where
  input := .operand (.signal "p" .present)
  output := .signal "o" (.substitute "3e+23" "30e22")

def fresh : Engine Outlet := .new Outlet.sink (.limited none "" true) none

def values : List (String × Json) := [("p", .int 1), ("p", .int 0)]

def trace : List (Event Line Json) := fresh.sessionEvents 1000 [] config values

theorem circuits_eq : config.circuits = [circuit] := rfl

/-- The values differ, and yet the rule finds its output on with its input off. -/
theorem runs : (Json.ofLiteral "3e+23").same (Json.ofLiteral "30e22") = false ∧
    (match fresh.start 1000 config with
      | some (started, _) => (started.publishAll 1000 values).isSome
      | none => false) = true ∧
    circuit.input.valueOn (circuit.bitsAfter (feeds 0 trace)) = some false ∧
    circuit.shown (feeds 0 trace) = some true := by
  decide +kernel

end Lookalike

/-- It is not enough that the values of a substitution differ. -/
theorem output_stays_on : ∃ (started engine : Engine Outlet) (rule : ActiveRule) (circuit : Circuit)
    (bits : List (Option Bool)) (onValue offValue : String),
      (Engine.new Outlet.sink (.limited none "" true) none).Starts Lookalike.config started ∧
      started.active[0]? = some rule ∧ rule.Follows circuit ∧
      circuit.output = .signal "o" (.substitute onValue offValue) ∧
      (Json.ofLiteral onValue).same (Json.ofLiteral offValue) = false ∧
      circuit.input = .operand (.signal "p" .present) ∧
      started.Publishes [("p", .int 1), ("p", .int 0)] engine ∧
      engine.Works 0 circuit bits (some true) ∧ circuit.input.valueOn bits = some false := by
  obtain ⟨differ, ends, input, output⟩ := Lookalike.runs
  cases starts : Lookalike.fresh.start 1000 Lookalike.config with
  | none =>
    rw [starts] at ends
    exact nomatch ends
  | some result =>
    obtain ⟨started, report⟩ := result
    rw [starts] at ends
    obtain ⟨engine, published⟩ := Option.isSome_iff_exists.mp ends
    have nothing : Engine.publishAll 1000 [] Lookalike.fresh = some Lookalike.fresh := rfl
    obtain ⟨tracked, follows⟩ := session_tracked nothing starts published
    have there : Lookalike.config.circuits[0]? = some Lookalike.circuit := by
      rw [Lookalike.circuits_eq]
      rfl
    have works := tracked.works there
    obtain ⟨rule, active, rule_follows⟩ := active_at follows there
    refine ⟨started, engine, rule, Lookalike.circuit,
      Lookalike.circuit.bitsAfter (feeds 0 Lookalike.trace), "3e+23", "30e22",
      starts_of_some starts, active, rule_follows, rfl, differ, rfl, publishes_of_some published, ?_,
      input⟩
    rw [← output]
    exact works

end Engine

end Switchboard
