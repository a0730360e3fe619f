import Switchboard.Proofs.Engine.Firing
import Switchboard.Proofs.Engine.RuleMemory
import Switchboard.Proofs.Engine.Tracing
import Switchboard.Proofs.Stream.Joint

/-!
# One firing for each disagreement

A rule is told whenever its input or its output has a new bit, and fires where
the two differ. Neither side repeats itself, so that only one of the two bits
changes at a time, and between two firings the rule must have been in
agreement. This is a matter of the values that the rule has been fed, in the
order in which it has been; how the rule's own deliveries come back among them
makes no difference.
-/
namespace Switchboard

open Event Network Switchboard.Stream

/-- The action for a pair of input and output. -/
def Action.fired : Bool × Bool → Option Action
  | (true, false) => some .turnOn
  | (false, true) => some .turnOff
  | _ => none

theorem Action.fired_eq (joint : Bool × Bool) : Action.fired joint = Action.decide joint.1 joint.2 := by
  obtain ⟨input, output⟩ := joint
  cases input <;> cases output <;> rfl

theorem Action.differs_of_fired {joint : Bool × Bool} (fires : Action.fired joint ≠ none) :
    joint.1 ≠ joint.2 := by
  obtain ⟨input, output⟩ := joint
  revert fires
  cases input <;> cases output <;> decide

namespace Circuit

/-- The input without its repetitions, side by side with the output. -/
def joint (circuit : Circuit) : BusStream (Bool × Bool) :=
  .pair (.distinct inferInstance (circuit.input.stream .empty)) (circuit.output.stream .empty)

/-- The pairs of input and output that a rule has been told of. -/
def updates (circuit : Circuit) (feeds : List (Nat × Option Json)) : List (Bool × Bool) :=
  (circuit.joint.course feeds).2

variable (circuit : Circuit) (feeds : List (Nat × Option Json))

/-- The actions of a rule are those of the pairs that it has been told of. -/
theorem course_actions :
    (circuit.actions.course feeds).2 = (circuit.updates feeds).filterMap Action.fired := by
  have decided (joints : List (Bool × Bool)) :
      (joints.map fun joint => Action.decide joint.1 joint.2).filterMap id =
        joints.filterMap Action.fired := by
    rw [List.filterMap_map]
    exact congrArg (joints.filterMap ·) (funext fun joint => (Action.fired_eq joint).symm)
  rw [actions, actionsOf, course_filterMap, course_combine_pair, decided]
  rfl

/-- The pair of the last bits, if both sides have one. -/
theorem last_joint : circuit.joint.last feeds =
    (circuit.truth feeds).bind fun i => (circuit.shown feeds).map (Prod.mk i) := by
  rw [← last_input]
  exact last_combine Prod.mk _ _ feeds

theorem isChain_updates : (circuit.updates feeds).IsChain OneSided :=
  isChain_pair (changing_distinct _ _) ((changing_distinct _ _).tap _) feeds

/-- Where both bits stay as they were, the rule is told nothing. -/
theorem updates_unchanged {circuit : Circuit} {feeds : List (Nat × Option Json)}
    {feed : Nat × Option Json} (truth : circuit.truth (feeds ++ [feed]) = circuit.truth feeds)
    (shown : circuit.shown (feeds ++ [feed]) = circuit.shown feeds) :
    circuit.updates (feeds ++ [feed]) = circuit.updates feeds := by
  rcases silent_or_emits circuit.joint feeds feed with silent | ⟨joint, emits⟩
  · exact silent
  · have before : circuit.joint.last feeds = some joint := by
      rw [last_joint, ← truth, ← shown, ← last_joint]
      exact emits.last
    have changed : OneSided joint joint := oneSided_of_emits (changing_distinct _ _)
      ((changing_distinct _ _).tap _) emits before
    rcases changed with ⟨other, _⟩ | ⟨_, other⟩
    · exact absurd rfl other
    · exact absurd rfl other

end Circuit

namespace Engine

variable {ς : Type}

/-- A rule at work, seen from what has happened. -/
theorem Tracked.works {sink : Sink ς} {circuits : List Circuit} {events : List (Event Line Json)}
    {engine : Engine ς} (tracked : Tracked sink circuits events engine) {n : Nat} {circuit : Circuit}
    (here : circuits[n]? = some circuit) :
    engine.Works n circuit (circuit.bitsAfter (feeds n events)) (circuit.shown (feeds n events)) := by
  obtain ⟨state, drive, output, stands⟩ := tracked.wired.circuit n circuit here
  have course : state = (circuit.actions.course (feeds n events)).1 :=
    tracked.sound.recorded.state n _ stands
  rw [← tracked.same_sink] at stands
  refine ⟨state, drive, output, stands, ?_, ?_⟩
  · rw [course]
    exact circuit.operandBits_course _
  · rw [course]
    exact circuit.outputBit_course _

/--
In a session, finished or not, over any sink: a rule has been called with the actions of the pairs
of input and output that it has been told of. Successive pairs differ in exactly one of the two
bits, between two that have fired there is one in agreement, and a value that leaves both bits as
they were brings no pair.
-/
theorem fires_once_per_disagreement (sink : Sink ς) (remembered : ς)
    (logs : Option RuleLog.Site) (config : EngineConfig) (before after : List (String × Json))
    (budget n : Nat) (circuit : Circuit) (here : config.circuits[n]? = some circuit) :
    let fresh := Engine.new sink remembered logs
    let trace := fresh.sessionEvents budget before config after
    let updates := circuit.updates (feeds n trace)
    (∀ ready started report, fresh.publishAll budget before = some ready →
        ready.start budget config = some (started, .ok report) →
        List.Forall₂ ActiveRule.Follows started.active config.circuits ∧
          ∃ bits output, started.Works n circuit bits output) ∧
      calls n trace = (updates.filterMap Action.fired).map (Sigma.mk Action) ∧
      updates.IsChain OneSided ∧
      (∀ past u between v later, updates = past ++ u :: (between ++ v :: later) →
        Action.fired u ≠ none → Action.fired v ≠ none → ∃ w ∈ between, w.1 = w.2) ∧
      ∀ fed feed later, feeds n trace = fed ++ feed :: later →
        circuit.truth (fed ++ [feed]) = circuit.truth fed →
        circuit.shown (fed ++ [feed]) = circuit.shown fed →
        circuit.updates (fed ++ [feed]) = circuit.updates fed := by
  intro fresh trace updates
  have chain := circuit.isChain_updates (feeds n trace)
  refine ⟨?_, ?_, chain, ?_, fun fed feed later _ => Circuit.updates_unchanged⟩
  · intro ready started report published starts
    have nothing : started.publishAll budget [] = some started := rfl
    obtain ⟨tracked, follows⟩ := session_tracked published starts nothing
    exact ⟨follows, _, _, tracked.works here⟩
  · rw [← Circuit.course_actions]
    exact session_followed sink remembered logs config before after budget n circuit here
  · intro past u between v later split first second
    have chain' : (past ++ u :: (between ++ v :: later)).IsChain OneSided := by
      rw [← split]
      exact chain
    exact agrees_between chain' (Action.differs_of_fired first) (Action.differs_of_fired second)

namespace Echo

/-- A rule whose output is read back. -/
def config : EngineConfig := ⟨[], [⟨none, some "p", some "o", none, false, true⟩]⟩

def circuit : Circuit := ⟨.operand (.signal "p" .present), .signal "o" .present⟩

/-- The path is set twice and then cleared. -/
def trace : List (Event Line Json) :=
  (Engine.new Outlet.sink (.limited none "" true) none).sessionEvents 100 [] config
    [("p", .int 1), ("p", .int 1), ("p", .int 0)]

theorem circuits_eq : config.circuits = [circuit] := rfl

theorem calls_trace : calls 0 trace = [Action.turnOn, Action.turnOff].map (Sigma.mk Action) := rfl

end Echo

theorem fires_once_over_loop :
    calls 0 Echo.trace = [Action.turnOn, Action.turnOff].map (Sigma.mk Action) ∧
      calls 0 Echo.trace = ((Echo.circuit.updates (feeds 0 Echo.trace)).filterMap Action.fired).map
        (Sigma.mk Action) := by
  obtain ⟨_, fired, _⟩ := fires_once_per_disagreement Outlet.sink (.limited none "" true) none
    Echo.config [] [("p", .int 1), ("p", .int 1), ("p", .int 0)] 100 0 Echo.circuit
    (by rw [Echo.circuits_eq]; rfl)
  exact ⟨Echo.calls_trace, fired⟩

end Engine

end Switchboard
