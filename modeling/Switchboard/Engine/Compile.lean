import Switchboard.Engine.Input
import Switchboard.Rule.Switching

/-!
# Which rules start, and what they become

A configuration is sorted without looking at the plant: disabled rules and
rules with an empty output are passed over, rules that lack their input or
output are dropped, and the others are candidates. A candidate is compiled to
a stream of actions, one whenever its input and its output differ.
-/
namespace Switchboard

/-- A rule that was not started, with the reason. -/
structure DroppedRule where
  rule : String
  reason : RuleError
  deriving Repr, DecidableEq

/-- What became of the configured rules. -/
structure StartReport where
  activated : List String
  dropped : List DroppedRule
  skipped : List String
  deriving Repr, DecidableEq

/-- What a rule is before it is compiled. -/
inductive Standing where
  | disabled
  | incomplete (reason : RuleError)
  | withoutOutput
  | candidate
  deriving Repr, DecidableEq

namespace RuleConfig

/-- What a rule lacks. -/
def missing? (rule : RuleConfig) : Option RuleError :=
  if rule.input.getD "" = "" then some (.missingProperty "input")
  else if rule.output = none then some (.missingProperty "output")
  else none

def standing (rule : RuleConfig) : Standing :=
  if !rule.enabled then .disabled
  else match rule.missing? with
    | some reason => .incomplete reason
    | none => if rule.output = some "" then .withoutOutput else .candidate

/-- A rule that counts as configured: one that is enabled and has an input and an output. -/
def isUsable (rule : RuleConfig) : Bool :=
  match rule.standing with
  | .withoutOutput | .candidate => true
  | .disabled | .incomplete _ => false

/-- The key of a rule: its id, or else its number in the configuration. -/
def key (rule : RuleConfig) (index : Nat) : String :=
  match rule.id with
  | some id => id
  | none => toString (index + 1)

end RuleConfig

/-- A rule that is ready to be started. -/
structure CompiledRule : Type 1 where
  key : String
  description : String
  input : String
  output : String
  term : Term
  mode : DeliveryMode
  actions : BusStream Action

/--
The actions of a rule with given input and output: one at every change that leaves the two
different.
-/
def actionsOf (input output : BusStream Bool) : BusStream Action :=
  .filterMap id (.combine Action.decide (.distinct inferInstance input) output)

/-- How a rule's output is delivered. -/
def EngineConfig.modeOf (config : EngineConfig) (rule : RuleConfig) (output : Term) :
    DeliveryMode :=
  if rule.usePut || config.putsTo output.path then .put else .notify

/-- Compiles a candidate. -/
def EngineConfig.compile (config : EngineConfig) (bus : Bus) (index : Nat) (rule : RuleConfig) :
    Except RuleError CompiledRule :=
  let input := rule.input.getD ""
  let output := rule.output.getD ""
  match Term.parse output with
  | .error e => .error e
  | .ok term =>
    match Input.compile bus input with
    | .error e => .error e
    | .ok stream =>
      .ok
        { key := rule.key index
          description := rule.displayName
          input := input
          output := output
          term := term
          mode := config.modeOf rule term
          actions := actionsOf stream (term.stream bus) }

/-- The notes on compiling a candidate. -/
def RuleConfig.compileNotes (rule : RuleConfig) : List Note :=
  match Term.ofText? (rule.output.getD "") with
  | none => []
  | some _ => Input.notes true (rule.input.getD "")

/-- The paths that compiling a candidate makes known. -/
def RuleConfig.compilePaths (rule : RuleConfig) : List String :=
  match Term.ofText? (rule.output.getD "") with
  | none => []
  | some term =>
    Input.paths (rule.input.getD "") ++
      match Input.check (rule.input.getD "") with
      | .ok _ => term.path?.toList
      | .error _ => []

/-- The candidates of a configuration with their numbers. -/
def EngineConfig.candidates (config : EngineConfig) : List (RuleConfig × Nat) :=
  config.rules.zipIdx.filter (·.1.standing == .candidate)

/-- The names of rules that are passed over. -/
def EngineConfig.skipped (config : EngineConfig) : List String :=
  (config.rules.filter fun rule =>
    rule.standing == .disabled || rule.standing == .withoutOutput).map (·.displayName)

/-- The rules that lack something. -/
def EngineConfig.incomplete (config : EngineConfig) : List DroppedRule :=
  config.rules.filterMap fun rule =>
    match rule.standing with
    | .incomplete reason => some ⟨rule.displayName, reason⟩
    | _ => none

/-- The number of usable rules. -/
def EngineConfig.usableCount (config : EngineConfig) : Nat :=
  (config.rules.filter (·.isUsable)).length

end Switchboard
