import Switchboard.Host.Service
import Switchboard.Proofs.Engine.Reach
import Switchboard.Proofs.Engine.Restart

/-!
# Which rules are started

What becomes of a rule can be told from the rule alone: it is passed over, it
is dropped because it lacks something or because it cannot be compiled, or it
is started. Neither the bus nor the sink has a part in this, and no earlier
start or stop has, although rules that have just been started may already be
at work while others are still being compiled. So a start reports what the
configuration says.
-/
namespace Switchboard

/-- What becomes of a configured rule. -/
inductive Fate where
  | skipped
  | lacking (reason : RuleError)
  | refused (reason : RuleError)
  | activated
  deriving DecidableEq

/-- How a rule is listed while it is active. -/
structure Listing where
  key : String
  description : String
  input : String
  output : String
  mode : DeliveryMode
  deriving DecidableEq

def ActiveRule.listing (rule : ActiveRule) : Listing :=
  ⟨rule.key, rule.description, rule.input, rule.output, rule.mode⟩

namespace RuleConfig

/-- Why a rule that has an input and an output cannot be compiled. -/
def refusal? (rule : RuleConfig) : Option RuleError :=
  let input := rule.input.getD ""
  let output := rule.output.getD ""
  match Term.ofText? output with
  | none => some (.undefinedTerm output)
  | some _ =>
    match Input.check input with
    | .error (.expression e) => some (.malformedExpression input (.expression e))
    | .error (.invalid ..) => some (.malformedExpression input .notSingle)
    | .ok _ => none

def fate (rule : RuleConfig) : Fate :=
  if !rule.enabled then .skipped
  else if rule.input.getD "" = "" then .lacking (.missingProperty "input")
  else if rule.output = none then .lacking (.missingProperty "output")
  else if rule.output = some "" then .skipped
  else match rule.refusal? with
    | some reason => .refused reason
    | none => .activated

/-- Whether a rule is enabled and has an input and an output, of which only the input is looked at. -/
def counts (rule : RuleConfig) : Prop :=
  rule.enabled = true ∧ rule.input.getD "" ≠ "" ∧ rule.output ≠ none

def lacking? (rule : RuleConfig) : Option DroppedRule :=
  match rule.fate with
  | .lacking reason => some ⟨rule.displayName, reason⟩
  | _ => none

def refused? (rule : RuleConfig) : Option DroppedRule :=
  match rule.fate with
  | .refused reason => some ⟨rule.displayName, reason⟩
  | _ => none

theorem fate_of_standing (rule : RuleConfig) : rule.fate =
    match rule.standing with
    | .disabled | .withoutOutput => .skipped
    | .incomplete reason => .lacking reason
    | .candidate =>
      match rule.refusal? with
      | some reason => .refused reason
      | none => .activated := by
  unfold fate standing missing?
  split
  · rfl
  · split
    · rfl
    · split
      · rfl
      · split <;> rfl

theorem isUsable_iff (rule : RuleConfig) : rule.isUsable = true ↔ rule.counts := by
  unfold isUsable standing missing? counts
  by_cases enabled : rule.enabled = true
  · by_cases input : rule.input.getD "" = ""
    · simp [enabled, input]
    · by_cases output : rule.output = none
      · simp [enabled, input, output]
      · by_cases empty : rule.output = some "" <;> simp [enabled, input, output, empty]
  · simp [enabled]

end RuleConfig

/-- Whether a text can be an input is the same over every bus, and so is why not. -/
theorem Input.compile_check (bus : Bus) (text : String) :
    match Input.check text with
    | .error (.expression e) =>
      Input.compile bus text = .error (.malformedExpression text (.expression e))
    | .error (.invalid ..) => Input.compile bus text = .error (.malformedExpression text .notSingle)
    | .ok _ => ∃ stream, Input.compile bus text = .ok stream := by
  have terms := Formula.readAs_termTable
  have streams := Formula.readAs_table bus
  unfold check Input.compile
  rw [streams.compile, terms.compile]
  cases Formula.table.compile text with
  | error e => rfl
  | ok polish =>
    dsimp only
    rw [streams.evaluate, terms.evaluate]
    cases Formula.table.evaluate polish with
    | none => rfl
    | some formula =>
      obtain ⟨b, value⟩ := formula.value_of_true
      simp only [Option.bind_some, value]
      exact ⟨_, rfl⟩

namespace EngineConfig

/-- How an active rule would be listed, if the candidate can be started. -/
def listing? (config : EngineConfig) (candidate : RuleConfig × Nat) : Option Listing :=
  if candidate.1.fate = .activated then
    (Term.ofText? (candidate.1.output.getD "")).map fun term =>
      ⟨candidate.1.key candidate.2, candidate.1.displayName, candidate.1.input.getD "",
        candidate.1.output.getD "", config.modeOf candidate.1 term⟩
  else none

/-- How the rules that are started are listed. -/
def listings (config : EngineConfig) : List Listing := config.rules.zipIdx.filterMap config.listing?

/-- What a start reports. -/
def verdict (config : EngineConfig) : StartReport where
  activated := (config.rules.filter (·.fate = .activated)).map (·.displayName)
  dropped := config.rules.filterMap (·.lacking?) ++ config.rules.filterMap (·.refused?)
  skipped := (config.rules.filter (·.fate = .skipped)).map (·.displayName)

/-- Every rule is in one list of the verdict, and in no other. -/
theorem verdict_perm (config : EngineConfig) :
    (config.verdict.activated ++ config.verdict.dropped.map (·.rule) ++
      config.verdict.skipped).Perm (config.rules.map (·.displayName)) := by
  unfold verdict
  dsimp only
  induction config.rules with
  | nil => exact .nil
  | cons rule rest ih =>
    simp only [List.map_append, List.append_assoc] at ih ⊢
    cases fate : rule.fate with
    | activated =>
      have lacks : rule.lacking? = none := by simp only [RuleConfig.lacking?, fate]
      have refused : rule.refused? = none := by simp only [RuleConfig.refused?, fate]
      simpa [fate, lacks, refused] using ih
    | lacking reason =>
      have lacks : rule.lacking? = some ⟨rule.displayName, reason⟩ := by
        simp only [RuleConfig.lacking?, fate]
      have refused : rule.refused? = none := by simp only [RuleConfig.refused?, fate]
      simpa [fate, lacks, refused] using List.perm_middle.trans (.cons rule.displayName ih)
    | refused reason =>
      have lacks : rule.lacking? = none := by simp only [RuleConfig.lacking?, fate]
      have refused : rule.refused? = some ⟨rule.displayName, reason⟩ := by
        simp only [RuleConfig.refused?, fate]
      rw [← List.append_assoc] at ih
      simpa [fate, lacks, refused] using List.perm_middle.trans (.cons rule.displayName ih)
    | skipped =>
      have lacks : rule.lacking? = none := by simp only [RuleConfig.lacking?, fate]
      have refused : rule.refused? = none := by simp only [RuleConfig.refused?, fate]
      rw [← List.append_assoc, ← List.append_assoc] at ih
      simpa [fate, lacks, refused] using List.perm_middle.trans (.cons rule.displayName ih)

/-- Whether a candidate can be compiled is the same over every bus. -/
theorem compile_fate (config : EngineConfig) (bus : Bus) (index : Nat) {rule : RuleConfig}
    (candidate : rule.standing = .candidate) :
    (∃ reason, rule.fate = .refused reason ∧ config.compile bus index rule = .error reason) ∨
      ∃ compiled, rule.fate = .activated ∧ config.compile bus index rule = .ok compiled ∧
        ∀ handle, config.listing? (rule, index) = some (compiled.active handle).listing := by
  have fate := rule.fate_of_standing
  rw [candidate] at fate
  have compiles := Input.compile_check bus (rule.input.getD "")
  unfold RuleConfig.refusal? at fate
  unfold EngineConfig.compile Term.parse
  cases read : Term.ofText? (rule.output.getD "") with
  | none =>
    simp only [read] at fate ⊢
    exact .inl ⟨_, fate, rfl⟩
  | some term =>
    cases checked : Input.check (rule.input.getD "") with
    | error e =>
      refine .inl ?_
      cases e <;>
      · simp only [read, checked] at fate compiles ⊢
        rw [compiles]
        exact ⟨_, fate, rfl⟩
    | ok polish =>
      simp only [read, checked] at fate compiles ⊢
      obtain ⟨stream, compiles⟩ := compiles
      rw [compiles]
      refine .inr ⟨_, fate, rfl, fun handle => ?_⟩
      rw [listing?, if_pos fate, read]
      rfl

theorem filterMap_zipIdx_fst {α β : Type} (f : α → Option β) (xs : List α) :
    xs.zipIdx.filterMap (fun x => f x.1) = xs.filterMap f := by
  have fst := List.zipIdx_map_fst 0 xs
  calc xs.zipIdx.filterMap (fun x => f x.1)
    _ = (xs.zipIdx.map Prod.fst).filterMap f := List.filterMap_map.symm
    _ = xs.filterMap f := by rw [fst]

/-- Only candidates are of interest to what is nothing for the others. -/
theorem filterMap_candidates (config : EngineConfig) {β : Type}
    (f : RuleConfig × Nat → Option β)
    (others : ∀ candidate, candidate.1.standing ≠ .candidate → f candidate = none) :
    config.candidates.filterMap f = config.rules.zipIdx.filterMap f := by
  rw [candidates, List.filterMap_filter]
  congr 1
  funext candidate
  by_cases here : candidate.1.standing = .candidate
  · rw [if_pos (beq_iff_eq.mpr here)]
  · rw [if_neg (by simpa using here), others candidate here]

theorem standing_of_fate {rule : RuleConfig}
    (fate : rule.fate = .activated ∨ ∃ reason, rule.fate = .refused reason) :
    rule.standing = .candidate := by
  rw [rule.fate_of_standing] at fate
  cases standing : rule.standing <;> simp_all

theorem term_of_activated {rule : RuleConfig} (activated : rule.fate = .activated) :
    ∃ term, Term.ofText? (rule.output.getD "") = some term := by
  cases read : Term.ofText? (rule.output.getD "") with
  | some term => exact ⟨term, rfl⟩
  | none =>
    have refused : rule.refusal? = some (.undefinedTerm (rule.output.getD "")) := by
      simp only [RuleConfig.refusal?, read]
    have standing := standing_of_fate (.inl activated)
    rw [rule.fate_of_standing, standing, refused] at activated
    cases activated

theorem listing?_eq_none (config : EngineConfig) {candidate : RuleConfig × Nat}
    (other : candidate.1.fate ≠ .activated) : config.listing? candidate = none :=
  if_neg other

theorem candidates_listings (config : EngineConfig) :
    config.candidates.filterMap config.listing? = config.listings :=
  config.filterMap_candidates _ fun _ other =>
    config.listing?_eq_none fun fate => other (standing_of_fate (.inl fate))

theorem candidates_refused (config : EngineConfig) :
    config.candidates.filterMap (fun candidate => candidate.1.refused?) =
      config.rules.filterMap (·.refused?) := by
  rw [config.filterMap_candidates]
  · exact filterMap_zipIdx_fst _ _
  · intro candidate other
    unfold RuleConfig.refused?
    split
    · rename_i reason fate
      exact absurd (standing_of_fate (.inr ⟨reason, fate⟩)) other
    · rfl

theorem incomplete_eq (config : EngineConfig) :
    config.incomplete = config.rules.filterMap (·.lacking?) := by
  unfold incomplete
  congr 1
  funext rule
  rw [RuleConfig.lacking?, rule.fate_of_standing]
  cases rule.standing <;> try rfl
  cases rule.refusal? <;> rfl

theorem skipped_eq (config : EngineConfig) : config.skipped = config.verdict.skipped := by
  unfold skipped verdict
  congr 2
  funext rule
  rw [rule.fate_of_standing]
  cases rule.standing <;> try rfl
  cases rule.refusal? <;> rfl

theorem listings_description (config : EngineConfig) :
    config.listings.map (·.description) = config.verdict.activated := by
  have named (candidate : RuleConfig × Nat) : (config.listing? candidate).map (·.description) =
      if candidate.1.fate = .activated then some candidate.1.displayName else none := by
    unfold listing?
    split
    · rename_i activated
      obtain ⟨term, read⟩ := term_of_activated activated
      rw [read]
      rfl
    · rfl
  calc config.listings.map (·.description)
    _ = config.rules.zipIdx.filterMap fun candidate =>
        if candidate.1.fate = .activated then some candidate.1.displayName else none := by
      rw [listings, List.map_filterMap]
      simp only [named]
    _ = config.rules.filterMap fun rule =>
        if rule.fate = .activated then some rule.displayName else none :=
      filterMap_zipIdx_fst
        (fun rule => if rule.fate = .activated then some rule.displayName else none) config.rules
    _ = config.verdict.activated := by
      rw [verdict, ← List.filterMap_eq_map, List.filterMap_filter]
      simp only [decide_eq_true_eq, Function.comp_apply]

end EngineConfig

namespace Engine

variable {ς : Type} {engine after : Engine ς}

/-- Every candidate has the outcome that the rule says. -/
theorem enable_fate {config : EngineConfig} {index : Nat} {rule : RuleConfig} {budget : Nat}
    (candidate : rule.standing = .candidate) {outcome : Except DroppedRule ActiveRule}
    (ends : engine.enable budget config index rule = some (after, outcome)) :
    (∃ dropped, outcome = .error dropped ∧ rule.refused? = some dropped ∧
        config.listing? (rule, index) = none) ∨
      ∃ active, outcome = .ok active ∧ rule.refused? = none ∧
        config.listing? (rule, index) = some active.listing := by
  rcases config.compile_fate engine.plant.bus index candidate with
    ⟨reason, fate, compiles⟩ | ⟨compiled, fate, compiles, listed⟩
  · rcases enable_eq_some.mp ends with ⟨reason', same, _, rfl⟩ | ⟨_, _, same, _⟩
    · obtain rfl : reason = reason' := Except.error.inj (compiles.symm.trans same)
      refine .inl ⟨_, rfl, ?_, ?_⟩
      · simp only [RuleConfig.refused?, fate]
      · rw [EngineConfig.listing?, if_neg (by simp [fate])]
    · exact nomatch compiles.symm.trans same
  · rcases enable_eq_some.mp ends with ⟨_, same, _⟩ | ⟨compiled', active, same, rfl, activates⟩
    · exact nomatch compiles.symm.trans same
    · obtain rfl : compiled = compiled' := Except.ok.inj (compiles.symm.trans same)
      obtain ⟨handle, rfl, _⟩ := activate_eq_some.mp activates
      refine .inr ⟨_, rfl, ?_, listed handle⟩
      simp only [RuleConfig.refused?, fate]

theorem enableAll_fate {config : EngineConfig} {candidates : List (RuleConfig × Nat)}
    (all : ∀ candidate ∈ candidates, candidate.1.standing = .candidate) {budget : Nat}
    {outcomes : List (Except DroppedRule ActiveRule)}
    (ends : Engine.enableAll budget config candidates engine = some (after, outcomes)) :
    (activeOf outcomes).map ActiveRule.listing = candidates.filterMap config.listing? ∧
      droppedOf outcomes = candidates.filterMap fun candidate => candidate.1.refused? := by
  induction candidates generalizing engine outcomes with
  | nil =>
    obtain ⟨_, rfl⟩ := Prod.mk.inj (Option.some.inj ends)
    exact ⟨rfl, rfl⟩
  | cons candidate rest ih =>
    obtain ⟨rule, index⟩ := candidate
    obtain ⟨here, later⟩ := List.forall_mem_cons.mp all
    obtain ⟨middle, outcome, later_outcomes, rfl, enabled, rest_ends⟩ := enableAll_cons.mp ends
    obtain ⟨listed, dropped⟩ := ih later rest_ends
    rcases enable_fate here enabled with ⟨_, rfl, refused, unlisted⟩ | ⟨_, rfl, refused, listing⟩
    · simp only [List.filterMap_cons, unlisted, refused]
      exact ⟨listed, congrArg (List.cons _) dropped⟩
    · simp only [List.filterMap_cons, listing, refused]
      exact ⟨congrArg (List.cons _) listed, dropped⟩

/-- The rules that a start activates are listed as the configuration says. -/
theorem report_verdict {config : EngineConfig} {budget : Nat}
    {outcomes : List (Except DroppedRule ActiveRule)}
    (ends : Engine.enableAll budget config config.candidates engine = some (after, outcomes)) :
    config.report outcomes = config.verdict ∧
      (activeOf outcomes).map ActiveRule.listing = config.listings := by
  have all : ∀ candidate ∈ config.candidates, candidate.1.standing = .candidate := fun _ member =>
    eq_of_beq (List.mem_filter.mp member).2
  obtain ⟨listed, dropped⟩ := enableAll_fate all ends
  rw [EngineConfig.candidates_listings] at listed
  rw [EngineConfig.candidates_refused] at dropped
  refine ⟨?_, listed⟩
  have activated : (activeOf outcomes).map (·.description) = config.verdict.activated := by
    rw [← config.listings_description, ← listed, List.map_map]
    rfl
  rw [EngineConfig.report, activated, dropped, config.incomplete_eq, config.skipped_eq]
  rfl

/-- Every tally that is shown belongs to a rule, and every rule has one. -/
theorem Manned.status {sink : Sink ς} {base : Nat} {crew : Crew} {past : List (Event Line Json)}
    (manned : engine.Manned sink base crew past) :
    engine.status.rules.map (·.rule) = engine.active := by
  have length : engine.active.length ≤ engine.plant.tallies.length := by
    rw [manned.active, List.length_map, manned.tallies]
  rw [Engine.status, ← List.map_uncurry_zip_eq_zipWith, List.map_map]
  exact List.map_fst_zip length

theorem usableCount_eq_zero (config : EngineConfig) :
    config.usableCount = 0 ↔ ¬∃ rule ∈ config.rules, rule.counts := by
  rw [EngineConfig.usableCount, List.length_eq_zero_iff, List.filter_eq_nil_iff]
  simp only [RuleConfig.isUsable_iff]
  push Not
  rfl

/-- An engine that is not running fails to start, or starts what the configuration says. -/
theorem start_idle (idle : engine.running = false) {budget : Nat} {config : EngineConfig}
    {result : Except RuleError StartReport}
    (ends : engine.start budget config = some (after, result)) :
    ((¬∃ rule ∈ config.rules, rule.counts) ∧ result = .error .noRules ∧
      after = engine.failed config) ∨
    (∃ rule ∈ config.rules, rule.counts) ∧ result = .ok config.verdict ∧ after.running = true ∧
      after.active.map ActiveRule.listing = config.listings := by
  rcases (start_eq_some idle).mp ends with ⟨unusable, rfl, rfl⟩ |
    ⟨usable, middle, outcomes, rfl, rfl, enables⟩
  · exact .inl ⟨(usableCount_eq_zero config).mp unusable, rfl, rfl⟩
  · obtain ⟨report, listed⟩ := report_verdict enables
    have something : ∃ rule ∈ config.rules, rule.counts :=
      not_not.mp fun nothing => usable ((usableCount_eq_zero config).mpr nothing)
    exact .inr ⟨something, congrArg Except.ok report, rfl, listed⟩

/-- What a start reports in any engine that is not running. -/
theorem result_of_start (idle : engine.running = false) {budget : Nat} {config : EngineConfig}
    {result : Except RuleError StartReport}
    (ends : engine.start budget config = some (after, result)) :
    ((∃ rule ∈ config.rules, rule.counts) → result = .ok config.verdict) ∧
      ((¬∃ rule ∈ config.rules, rule.counts) → result = .error .noRules) := by
  rcases start_idle idle ends with ⟨nothing, failed, _⟩ | ⟨something, reported, _⟩
  · exact ⟨fun something => absurd something nothing, fun _ => failed⟩
  · exact ⟨fun _ => reported, fun nothing => absurd something nothing⟩

end Engine

/-- What would be started is what the configuration says. -/
theorem Host.result_of_check {budget : Nat} {service : ServiceConfig} {entries : List Entry}
    {outcome : Except Host.Failure StartReport}
    (checks : Host.check budget service = some (entries, outcome)) :
    ((∃ rule ∈ service.engine.rules, rule.counts) → outcome = .ok service.engine.verdict) ∧
      ((¬∃ rule ∈ service.engine.rules, rule.counts) →
        outcome = .error ⟨"No usable rules", some RuleError.noRules.message⟩) := by
  obtain ⟨⟨after, result⟩, starts, same⟩ := Option.map_eq_some_iff.mp checks
  obtain ⟨ok, error⟩ := Engine.result_of_start rfl starts
  refine ⟨fun something => ?_, fun nothing => ?_⟩
  · obtain rfl := ok something
    exact (Prod.mk.inj same).2.symm
  · obtain rfl := error nothing
    exact (Prod.mk.inj same).2.symm

/-- What a service has started is what its configuration says. -/
theorem Host.report_of_opened {budget : Nat} {look : String → Presence} {service : ServiceConfig}
    {opened : Host.Service}
    (opens : Host.Service.opened budget look service = some (.ok opened)) :
    opened.report = service.engine.verdict := by
  obtain ⟨⟨after, result⟩, starts, same⟩ := Option.map_eq_some_iff.mp opens
  have idle : (Host.fresh look service).running = false := by
    unfold Host.fresh
    dsimp only
    split <;> rfl
  obtain ⟨ok, error⟩ := Engine.result_of_start idle starts
  cases result with
  | error e => cases same
  | ok report =>
    obtain rfl := Except.ok.inj same
    by_cases something : ∃ rule ∈ service.engine.rules, rule.counts
    · exact Except.ok.inj (ok something)
    · exact nomatch error something

namespace Engine

variable {ς : Type} {engine after : Engine ς}

/-- The three ways in which a start can go. -/
theorem start_cases {sink : Sink ς} {base : Nat} {crew : Crew} {past : List (Event Line Json)}
    (manned : engine.Manned sink base crew past) {budget : Nat} {config : EngineConfig}
    {result : Except RuleError StartReport}
    (ends : engine.start budget config = some (after, result)) :
    (engine.running = true ∧ result = .error .alreadyRunning ∧ after = engine) ∨
    (engine.running = false ∧ (¬∃ rule ∈ config.rules, rule.counts) ∧
      result = .error .noRules ∧ ∃ notes : List Note, after =
        (engine.write (notes.map .note)).alter (.setError RuleError.noRules.message)) ∨
    engine.running = false ∧ (∃ rule ∈ config.rules, rule.counts) ∧
      result = .ok config.verdict ∧ after.running = true ∧
        after.status.rules.map (·.rule.listing) = config.listings := by
  obtain ⟨base', crew', past', manned'⟩ := manned.start ends
  cases running : engine.running with
  | true =>
    rw [start_running running] at ends
    obtain ⟨rfl, rfl⟩ := Prod.mk.inj (Option.some.inj ends)
    exact .inl ⟨rfl, rfl, rfl⟩
  | false =>
    rcases start_idle running ends with ⟨nothing, failed, rfl⟩ | ⟨something, reported, works, listed⟩
    · exact .inr (.inl ⟨rfl, nothing, failed, failed_eq engine config⟩)
    · have status := congrArg (List.map ActiveRule.listing) manned'.status
      rw [List.map_map] at status
      exact .inr (.inr ⟨rfl, something, reported, works, status.trans listed⟩)

/--
A start is refused while the engine is running, and then nothing changes. Otherwise it fails if no
rule is enabled that has an input and an output, and then some notes are made and an error is
shown. Otherwise it reports what the configuration says, and the rules that are listed are those
that it reports as activated. Every rule is in one list of the report and in no other. The same is
reported when it is only to be seen which rules would start, and when a service is opened.
-/
theorem start_verdict {sink : Sink ς} (reachable : Reachable sink engine) {budget : Nat}
    {config : EngineConfig} {result : Except RuleError StartReport}
    (ends : engine.start budget config = some (after, result)) :
    (result = .error .alreadyRunning ↔ engine.running = true) ∧
    (engine.running = true → after = engine) ∧
    (engine.running = false →
      (result = .error .noRules ↔ ¬∃ rule ∈ config.rules, rule.counts) ∧
      (result = .error .noRules → ∃ notes : List Note, after =
        (engine.write (notes.map .note)).alter (.setError RuleError.noRules.message)) ∧
      ((∃ rule ∈ config.rules, rule.counts) →
        result = .ok config.verdict ∧ after.running = true ∧
          after.status.rules.map (·.rule.listing) = config.listings)) ∧
    config.listings.map (·.description) = config.verdict.activated ∧
    (config.verdict.activated ++ config.verdict.dropped.map (·.rule) ++
      config.verdict.skipped).Perm (config.rules.map (·.displayName)) ∧
    ∀ (service : ServiceConfig), service.engine = config →
      (∀ budget entries outcome, Host.check budget service = some (entries, outcome) →
        ((∃ rule ∈ config.rules, rule.counts) → outcome = .ok config.verdict) ∧
        ((¬∃ rule ∈ config.rules, rule.counts) →
          outcome = .error ⟨"No usable rules", some RuleError.noRules.message⟩)) ∧
      ∀ budget look opened, Host.Service.opened budget look service = some (.ok opened) →
        opened.report = config.verdict := by
  obtain ⟨base, crew, past, manned⟩ := reachable.manned
  refine ⟨?_, ?_, fun idle => ?_, config.listings_description, config.verdict_perm, ?_⟩
  · rcases start_cases manned ends with ⟨running, rfl, rfl⟩ | ⟨idle, _, rfl, _⟩ |
      ⟨idle, _, rfl, _⟩
    · exact ⟨fun _ => running, fun _ => rfl⟩
    · exact ⟨nofun, fun running => nomatch idle.symm.trans running⟩
    · exact ⟨nofun, fun running => nomatch idle.symm.trans running⟩
  · intro running
    rw [start_running running] at ends
    exact (Prod.mk.inj (Option.some.inj ends)).1.symm
  · rcases start_cases manned ends with ⟨running, _⟩ | ⟨_, nothing, rfl, notes⟩ |
      ⟨_, something, rfl, works⟩
    · exact nomatch running.symm.trans idle
    · exact ⟨⟨fun _ => nothing, fun _ => rfl⟩, fun _ => notes,
        fun something => absurd something nothing⟩
    · exact ⟨⟨nofun, fun nothing => absurd something nothing⟩, nofun, fun _ => ⟨rfl, works⟩⟩
  · rintro service rfl
    exact ⟨fun _ _ _ checks => Host.result_of_check checks,
      fun _ _ _ opens => Host.report_of_opened opens⟩

namespace Sorted

/-- One rule of each kind, and one that is as it should be. -/
def config : EngineConfig where
  usePut := []
  rules :=
    [⟨none, some "p", some "o", some "off duty", false, false⟩,
     ⟨none, some "", some "o", some "no input", false, true⟩,
     ⟨none, some "p", some "", some "no output", false, true⟩,
     ⟨none, some "p", some ":", some "bad output", false, true⟩,
     ⟨none, some "p q", some "o", some "bad input", false, true⟩,
     ⟨some "n", some "not p", some "o", some "good", false, true⟩]

def report : StartReport where
  activated := ["good"]
  dropped :=
    [⟨"no input", .missingProperty "input"⟩, ⟨"bad output", .undefinedTerm ":"⟩,
     ⟨"bad input", .malformedExpression "p q" .notSingle⟩]
  skipped := ["off duty", "no output"]

theorem verdict_eq : config.verdict = report := by decide

theorem listings_eq : config.listings = [⟨"n", "good", "not p", "o", .notify⟩] := by
  decide

theorem some_count : ∃ rule ∈ config.rules, rule.counts :=
  ⟨_, List.mem_cons_of_mem _ (List.mem_cons_of_mem _ List.mem_cons_self), rfl,
    by decide, nofun⟩

theorem starts : (Reopened.switched.stop.start 100 config).isSome = true := by decide

end Sorted

/-- An engine that was stopped while its output was on sorts the rules of another configuration. -/
theorem sorts_every_kind : Reachable Outlet.sink Reopened.switched.stop ∧ ∃ started,
    Reopened.switched.stop.start 100 Sorted.config = some (started, .ok Sorted.report) ∧
      started.status.rules.map (·.rule.listing) = [⟨"n", "good", "not p", "o", .notify⟩] := by
  have reachable : Reachable Outlet.sink Reopened.switched.stop :=
    (((Reachable.new _ _).starts Reopened.starts_started).publishes Reopened.publishes_switched).stop
  obtain ⟨⟨started, result⟩, ends⟩ := Option.isSome_iff_exists.mp Sorted.starts
  obtain ⟨_, _, goes, _⟩ := start_verdict reachable ends
  obtain ⟨rfl, _, listed⟩ := (goes rfl).2.2 Sorted.some_count
  rw [Sorted.verdict_eq] at ends
  rw [Sorted.listings_eq] at listed
  exact ⟨reachable, started, ends, listed⟩

end Engine

end Switchboard
