import Switchboard.Proofs.Engine.Formula
import Switchboard.Proofs.Engine.Session

/-!
# Circuits

What is left of a rule when its texts have been read: the formula of its input
and the term of its output. The circuits of a configuration are those of its
candidates that can be compiled. Starting an engine subscribes to their
actions, one circuit after the other and in this order, and does nothing else
that a listener could notice.
-/
namespace Switchboard

open Event Network

structure Circuit where
  input : Formula
  output : Term

/-- A stream depends on the generation of the bus alone. -/
theorem Term.stream_congr {bus bus' : Bus} (same : bus.generation = bus'.generation)
    (term : Term) : term.stream bus = term.stream bus' := by
  have line (path : String) : bus.line path = bus'.line path := by
    rw [Bus.line, Bus.line, same]
  simp only [Term.stream, Term.bits, line]

theorem Formula.stream_congr {bus bus' : Bus} (same : bus.generation = bus'.generation)
    (formula : Formula) : formula.stream bus = formula.stream bus' := by
  induction formula with
  | operand term => exact Term.stream_congr same term
  | negation formula ih => rw [stream, stream, ih]
  | conjunction left right ih ih' => rw [stream, stream, ih, ih']
  | disjunction left right ih ih' => rw [stream, stream, ih, ih']

/-- The actions of a circuit in the first generation of a bus. -/
def Circuit.actions (circuit : Circuit) : BusStream Action :=
  actionsOf (circuit.input.stream .empty) (circuit.output.stream .empty)

/-- The circuit of a rule, if its texts can be read. -/
def RuleConfig.circuit? (rule : RuleConfig) : Option Circuit :=
  (Formula.table.value? (rule.input.getD "")).bind fun input =>
    (Term.ofText? (rule.output.getD "")).map (Circuit.mk input)

/-- The circuits of numbered rules, as far as these have any. -/
def circuitsOf : List (RuleConfig × Nat) → List Circuit
  | [] => []
  | (rule, _) :: rest => rule.circuit?.toList ++ circuitsOf rest

/-- The circuits that are started, in the order in which they are. -/
def EngineConfig.circuits (config : EngineConfig) : List Circuit := circuitsOf config.candidates

/-- Where a circuit is put to work: how its output is delivered, and the name of its rule. -/
structure Post where
  circuit : Circuit
  mode : DeliveryMode
  description : String

/-- The post of a rule, if it has a circuit. -/
def EngineConfig.post? (config : EngineConfig) (rule : RuleConfig) : Option Post :=
  rule.circuit?.map fun circuit => ⟨circuit, config.modeOf rule circuit.output, rule.displayName⟩

/-- The posts of numbered rules, as far as these have any. -/
def EngineConfig.postsOf (config : EngineConfig) (candidates : List (RuleConfig × Nat)) :
    List Post :=
  candidates.filterMap fun candidate => config.post? candidate.1

/-- The posts of the rules that are started. -/
def EngineConfig.posts (config : EngineConfig) : List Post := config.postsOf config.candidates

theorem EngineConfig.circuit?_eq (config : EngineConfig) (rule : RuleConfig) :
    rule.circuit? = (config.post? rule).map (·.circuit) := by
  rw [post?]
  cases rule.circuit? <;> rfl

theorem EngineConfig.circuitsOf_eq (config : EngineConfig) (candidates : List (RuleConfig × Nat)) :
    circuitsOf candidates = (config.postsOf candidates).map (·.circuit) := by
  induction candidates with
  | nil => rfl
  | cons candidate rest ih =>
    obtain ⟨rule, index⟩ := candidate
    rw [circuitsOf, ih, postsOf, postsOf, List.filterMap_cons, config.circuit?_eq]
    cases config.post? rule <;> rfl

theorem EngineConfig.circuits_eq (config : EngineConfig) :
    config.circuits = config.posts.map (·.circuit) :=
  config.circuitsOf_eq config.candidates

/-- An active rule that works as a circuit. -/
structure ActiveRule.Follows (rule : ActiveRule) (circuit : Circuit) : Prop where
  input : Formula.table.value? rule.input = some circuit.input
  output : Term.ofText? rule.output = some circuit.output

/-- An active rule that is at a post. -/
structure ActiveRule.Fills (rule : ActiveRule) (post : Post) : Prop where
  follows : rule.Follows post.circuit
  description : rule.description = post.description

/-- A drive that is made for a post, with its tally at a certain place. -/
structure Drive.Serves (drive : Drive) (post : Post) (place : Nat) : Prop where
  rule : drive.rule = place
  output : drive.output = post.circuit.output
  mode : drive.mode = post.mode

/-- A compiled rule that is for a post. -/
structure CompiledRule.Fills (compiled : CompiledRule) (post : Post) : Prop where
  term : compiled.term = post.circuit.output
  actions : compiled.actions = post.circuit.actions
  mode : compiled.mode = post.mode
  description : compiled.description = post.description
  input : Formula.table.value? compiled.input = some post.circuit.input
  output : Term.ofText? compiled.output = some post.circuit.output

/-- A text is compiled if it has a value. -/
theorem Input.compile_eq (bus : Bus) (text : String) :
    (∃ reason, Input.compile bus text = .error reason ∧ (Input.table bus).value? text = none) ∨
      ∃ stream, Input.compile bus text = .ok stream ∧
        (Input.table bus).value? text = some stream := by
  unfold Input.compile Expr.Table.value?
  cases (Input.table bus).compile text with
  | error e => exact .inl ⟨_, rfl, rfl⟩
  | ok polish =>
    cases evaluated : (Input.table bus).evaluate polish with
    | none =>
      refine .inl ⟨.malformedExpression text .notSingle, ?_, ?_⟩
      · simp only [evaluated]
      · simp only [evaluated]
    | some stream =>
      refine .inr ⟨stream, ?_, ?_⟩
      · simp only [evaluated]
      · simp only [evaluated]

/-- What a rule is compiled to. -/
theorem EngineConfig.compile_eq {config : EngineConfig} {bus : Bus} {rule : RuleConfig}
    {term : Term} {stream : BusStream Bool} (index : Nat)
    (parsed : Term.parse (rule.output.getD "") = .ok term)
    (read : Input.compile bus (rule.input.getD "") = .ok stream) :
    config.compile bus index rule = .ok
      { key := rule.key index
        description := rule.displayName
        input := rule.input.getD ""
        output := rule.output.getD ""
        term := term
        mode := config.modeOf rule term
        actions := actionsOf stream (term.stream bus) } := by
  unfold EngineConfig.compile
  simp only [parsed, read]

/-- What has been compiled is the circuit of some texts, over the bus that it has been compiled for. -/
theorem EngineConfig.circuit_of_compile {config : EngineConfig} {bus : Bus} {index : Nat}
    {rule : RuleConfig} {compiled : CompiledRule}
    (compiles : config.compile bus index rule = .ok compiled) :
    ∃ circuit : Circuit, Term.ofText? compiled.output = some circuit.output ∧
      compiled.term = circuit.output ∧
      compiled.actions = actionsOf (circuit.input.stream bus) (circuit.output.stream bus) := by
  unfold EngineConfig.compile Term.parse at compiles
  dsimp only at compiles
  cases output : Term.ofText? (rule.output.getD "") with
  | none =>
    rw [output] at compiles
    cases compiles
  | some term =>
    rw [output] at compiles
    rcases Input.compile_eq bus (rule.input.getD "") with ⟨reason, failed, _⟩ |
      ⟨stream, read, evaluates⟩
    · simp only [failed] at compiles
      cases compiles
    · simp only [read] at compiles
      obtain rfl := Except.ok.inj compiles
      rw [Formula.value?_table] at evaluates
      obtain ⟨formula, _, rfl⟩ := Option.map_eq_some_iff.mp evaluates
      exact ⟨⟨formula, term⟩, output, rfl, rfl⟩

/-- A rule is compiled if it has a post, and then to what the post says. -/
theorem EngineConfig.compile_post (config : EngineConfig) {bus : Bus}
    (first : bus.generation = 0) (index : Nat) (rule : RuleConfig) :
    (config.post? rule = none ∧ ∃ reason, config.compile bus index rule = .error reason) ∨
      ∃ post compiled, config.post? rule = some post ∧
        config.compile bus index rule = .ok compiled ∧ compiled.Fills post := by
  unfold EngineConfig.post? RuleConfig.circuit?
  cases output : Term.ofText? (rule.output.getD "") with
  | none =>
    have failed : Term.parse (rule.output.getD "") =
        .error (.undefinedTerm (rule.output.getD "")) := by
      rw [Term.parse, output]
    refine .inl ⟨by simp, .undefinedTerm (rule.output.getD ""), ?_⟩
    unfold EngineConfig.compile
    simp only [failed]
  | some term =>
    have parsed : Term.parse (rule.output.getD "") = .ok term := by
      rw [Term.parse, output]
    rcases Input.compile_eq bus (rule.input.getD "") with ⟨reason, failed, nothing⟩ |
      ⟨stream, read, something⟩
    · rw [Formula.value?_table, Option.map_eq_none_iff] at nothing
      refine .inl ⟨by rw [nothing]; rfl, reason, ?_⟩
      unfold EngineConfig.compile
      simp only [parsed, failed]
    · rw [Formula.value?_table, Option.map_eq_some_iff] at something
      obtain ⟨formula, value, rfl⟩ := something
      have same : bus.generation = Bus.empty.generation := first
      refine .inr ⟨⟨⟨formula, term⟩, config.modeOf rule term, rule.displayName⟩, _,
        by rw [value]; rfl, EngineConfig.compile_eq index parsed read, rfl, ?_, rfl, rfl, value,
        output⟩
      rw [Circuit.actions, ← Formula.stream_congr same, ← Term.stream_congr same]

end Switchboard
