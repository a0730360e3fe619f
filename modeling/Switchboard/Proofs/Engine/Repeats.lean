import Switchboard.Proofs.Engine.Circuit
import Switchboard.Proofs.Stream.Repeats

/-!
# Rules and values that come again

However the operands of a rule read their signals, a value that comes again on
one of them is read as it was before. Every operand leaves out bits that it
has passed on last, and so nothing reaches the rule.
-/
namespace Switchboard

open Switchboard.Stream

theorem Term.echoes_bitsFromZero (line : Line) (read : Json → Option Bool) :
    (bitsFromZero line read).Echoes := by
  have zero : (Stream.property (.int 0) (.subject line) : BusStream Json).Echoes :=
    .property _ id rfl fun _ incoming => ⟨(), [], by cases incoming <;> rfl⟩
  exact zero.filterMap read

/-- What a term makes of a value that comes again is the bit that it has made of it before. -/
theorem Term.echoes_bits (bus : Bus) (term : Term) : (term.bits bus).Echoes := by
  have line : (.subject (bus.line term.path) : BusStream Json).Echoes := .subject _
  cases term with
  | off => exact .constant false
  | on => exact .constant true
  | switch bank channel => exact echoes_bitsFromZero _ _
  | notification path onState =>
    exact .property _ (isRaised onState) rfl fun _ incoming =>
      ⟨(), [], by cases incoming <;> rfl⟩
  | signal path test =>
    cases test with
    | present => exact echoes_bitsFromZero _ _
    | compare comparator operand => exact line.filterMap _
    | substitute onValue offValue => exact echoes_bitsFromZero _ _

theorem Term.ignoresRepeats_stream (bus : Bus) (term : Term) :
    (term.stream bus).IgnoresRepeats :=
  ((term.echoes_bits bus).distinct inferInstance).tap term.issuing

theorem Input.ignoresRepeats_joined (word : String) (f : Bool → Bool → Bool)
    {left right : BusStream Bool} (ignores : left.IgnoresRepeats)
    (ignores' : right.IgnoresRepeats) : (joined word f left right).IgnoresRepeats :=
  ((ignores.combine ignores' Prod.mk).tap _).filterMap _

theorem Formula.ignoresRepeats_stream (bus : Bus) (formula : Formula) :
    (formula.stream bus).IgnoresRepeats := by
  induction formula with
  | operand term => exact term.ignoresRepeats_stream bus
  | negation _ ih => exact ih.filterMap _
  | conjunction _ _ ih ih' => exact Input.ignoresRepeats_joined _ _ ih ih'
  | disjunction _ _ ih ih' => exact Input.ignoresRepeats_joined _ _ ih ih'

theorem ignoresRepeats_actionsOf {input output : BusStream Bool}
    (ignores : input.IgnoresRepeats) (ignores' : output.IgnoresRepeats) :
    (actionsOf input output).IgnoresRepeats :=
  ((ignores.distinct inferInstance).combine ignores' Action.decide).filterMap id

/-- Nothing that comes again reaches a rule. -/
theorem EngineConfig.ignoresRepeats_compile {config : EngineConfig} {bus : Bus} {index : Nat}
    {rule : RuleConfig} {compiled : CompiledRule}
    (compiles : config.compile bus index rule = .ok compiled) :
    compiled.actions.IgnoresRepeats := by
  obtain ⟨circuit, _, _, actions⟩ := EngineConfig.circuit_of_compile compiles
  rw [actions]
  exact ignoresRepeats_actionsOf (circuit.input.ignoresRepeats_stream bus)
    (circuit.output.ignoresRepeats_stream bus)

end Switchboard
