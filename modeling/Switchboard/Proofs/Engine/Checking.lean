import Switchboard.Proofs.Engine.Verdict

/-!
# What the compiler says of an input

An input can be checked without any bus, by letting every term count as true.
The engine evaluates it over the streams of a bus. Both read the same formula,
and whether there is one depends on no values: an input passes the check
exactly when it has a stream, and its Polish form is the same. So the check
tells which complete rules a start activates.
-/
namespace Switchboard

namespace Input

/-- A text passes the check when it has a formula, and then its Polish form is given. -/
theorem check_eq_ok_iff {text polish : String} : check text = .ok polish ↔
    Formula.table.compile text = .ok polish ∧
      ∃ formula, Formula.table.evaluate polish = some formula := by
  have terms := Formula.readAs_termTable
  unfold check
  rw [terms.compile]
  cases compiled : Formula.table.compile text with
  | error e => simp
  | ok polish' =>
    dsimp only
    rw [terms.evaluate]
    cases evaluated : Formula.table.evaluate polish' with
    | none =>
      constructor
      · exact nofun
      · rintro ⟨same, formula, there⟩
        obtain rfl := Except.ok.inj same
        exact nomatch evaluated.symm.trans there
    | some formula =>
      obtain ⟨b, value⟩ := formula.value_of_true
      simp only [Option.bind_some, value]
      constructor
      · intro same
        obtain rfl := Except.ok.inj same
        exact ⟨rfl, formula, evaluated⟩
      · rintro ⟨same, _⟩
        exact congrArg _ (Except.ok.inj same)

/-- A text that passes the check has a stream over every bus, and no other text has. -/
theorem check_iff_evaluate (bus : Bus) (text : String) :
    (∃ polish, check text = .ok polish) ↔ ∃ stream, evaluate bus text = some stream := by
  unfold evaluate
  rw [Formula.value?_table, Expr.Table.value?]
  constructor
  · rintro ⟨polish, checked⟩
    obtain ⟨compiled, formula, evaluated⟩ := check_eq_ok_iff.mp checked
    rw [compiled]
    exact ⟨_, congrArg (Option.map (Formula.stream bus)) evaluated⟩
  · rintro ⟨stream, evaluated⟩
    cases compiled : Formula.table.compile text with
    | error e =>
      rw [compiled] at evaluated
      cases evaluated
    | ok polish =>
      rw [compiled] at evaluated
      obtain ⟨formula, there, _⟩ := Option.map_eq_some_iff.mp evaluated
      exact ⟨polish, check_eq_ok_iff.mpr ⟨compiled, formula, there⟩⟩

/-- The Polish form that the check gives is that over the streams of the bus. -/
theorem compile_of_check (bus : Bus) {text polish : String} (checked : check text = .ok polish) :
    (table bus).compile text = .ok polish := by
  rw [(Formula.readAs_table bus).compile]
  exact (check_eq_ok_iff.mp checked).1

end Input

namespace RuleConfig

/-- Whether a rule is enabled and has an input, and an output that is a term. -/
def Complete (rule : RuleConfig) : Prop :=
  rule.enabled = true ∧ rule.input.getD "" ≠ "" ∧
    ∃ output term, rule.output = some output ∧ output ≠ "" ∧ Term.ofText? output = some term

theorem standing_eq_candidate_iff (rule : RuleConfig) : rule.standing = .candidate ↔
    rule.enabled = true ∧ rule.input.getD "" ≠ "" ∧
      ∃ output, rule.output = some output ∧ output ≠ "" := by
  unfold standing missing?
  by_cases enabled : rule.enabled = true
  · by_cases input : rule.input.getD "" = ""
    · simp [enabled, input]
    · cases here : rule.output with
      | none => simp [enabled, input]
      | some output => by_cases empty : output = "" <;> simp [enabled, input, empty]
  · simp [enabled]

/-- Nothing is against a rule whose output is a term and whose input passes the check. -/
theorem refusal?_eq_none_iff (rule : RuleConfig) : rule.refusal? = none ↔
    (∃ term, Term.ofText? (rule.output.getD "") = some term) ∧
      ∃ polish, Input.check (rule.input.getD "") = .ok polish := by
  unfold refusal?
  cases read : Term.ofText? (rule.output.getD "") with
  | none => simp [read]
  | some term =>
    cases checked : Input.check (rule.input.getD "") with
    | error e => cases e <;> simp [read, checked]
    | ok polish => simp [read, checked]

/-- The rules that are started are the complete ones whose input passes the check. -/
theorem fate_eq_activated_iff (rule : RuleConfig) : rule.fate = .activated ↔
    rule.Complete ∧ ∃ polish, Input.check (rule.input.getD "") = .ok polish := by
  have started : rule.fate = .activated ↔ rule.standing = .candidate ∧ rule.refusal? = none := by
    rw [rule.fate_of_standing]
    cases rule.standing <;> cases rule.refusal? <;> simp
  rw [started, standing_eq_candidate_iff, refusal?_eq_none_iff]
  constructor
  · rintro ⟨⟨enabled, input, output, here, nonempty⟩, ⟨term, read⟩, checked⟩
    rw [here] at read
    exact ⟨⟨enabled, input, output, term, here, nonempty, read⟩, checked⟩
  · rintro ⟨⟨enabled, input, output, term, here, nonempty, read⟩, checked⟩
    refine ⟨⟨enabled, input, output, here, nonempty⟩, ⟨term, ?_⟩, checked⟩
    rw [here]
    exact read

theorem Complete.counts {rule : RuleConfig} (complete : rule.Complete) : rule.counts := by
  obtain ⟨enabled, input, output, term, here, _⟩ := complete
  exact ⟨enabled, input, by simp [here]⟩

end RuleConfig

/-- An active rule is the configured one at a place. -/
def EngineConfig.Holds (config : EngineConfig) (place : Nat) (active : ActiveRule) : Prop :=
  ∃ rule, config.rules[place]? = some rule ∧ active.key = rule.key place ∧
    active.description = rule.displayName ∧ rule.input = some active.input ∧
    rule.output = some active.output

namespace EngineConfig

/-- The places of the rules that are started. -/
def activePlaces (config : EngineConfig) : List Nat :=
  (config.rules.zipIdx.filter fun candidate => (config.listing? candidate).isSome).map Prod.snd

theorem activePlaces_increasing (config : EngineConfig) :
    config.activePlaces.Pairwise (· < ·) := by
  have part : config.activePlaces.Sublist (List.range' 0 config.rules.length) := by
    rw [← List.zipIdx_map_snd 0 config.rules]
    exact List.filter_sublist.map Prod.snd
  exact List.Pairwise.sublist part List.pairwise_lt_range'

theorem listing?_isSome_iff (config : EngineConfig) (rule : RuleConfig) (place : Nat) :
    (config.listing? (rule, place)).isSome = true ↔ rule.fate = .activated := by
  unfold listing?
  by_cases activated : rule.fate = .activated
  · obtain ⟨term, read⟩ := term_of_activated activated
    simp [activated, read]
  · simp [activated]

theorem mem_activePlaces (config : EngineConfig) {place : Nat} {rule : RuleConfig}
    (here : config.rules[place]? = some rule) :
    place ∈ config.activePlaces ↔ rule.fate = .activated := by
  rw [activePlaces, List.mem_map, ← config.listing?_isSome_iff rule place]
  constructor
  · rintro ⟨⟨rule', place'⟩, member, rfl⟩
    obtain ⟨member, listed⟩ := List.mem_filter.mp member
    obtain rfl := Option.some.inj (here.symm.trans (List.mk_mem_zipIdx_iff_getElem?.mp member))
    exact listed
  · intro listed
    exact ⟨(rule, place), List.mem_filter.mpr ⟨List.mk_mem_zipIdx_iff_getElem?.mpr here, listed⟩,
      rfl⟩

/-- What is listed belongs to the rules that have a listing, in order. -/
theorem forall₂_filterMap {α β : Type} (f : α → Option β) (xs : List α) :
    List.Forall₂ (fun x y => f x = some y) (xs.filter fun x => (f x).isSome) (xs.filterMap f) := by
  induction xs with
  | nil => exact .nil
  | cons x rest ih =>
    cases here : f x with
    | none => simpa [here] using ih
    | some y => simpa [here] using ih

theorem holds_of_listing {config : EngineConfig} {rule : RuleConfig} {place : Nat}
    {active : ActiveRule} (here : config.rules[place]? = some rule)
    (listed : config.listing? (rule, place) = some active.listing) :
    config.Holds place active := by
  have activated := (config.listing?_isSome_iff rule place).mp (by rw [listed]; rfl)
  obtain ⟨⟨_, nonempty, output, term, written, _, read⟩, _⟩ :=
    rule.fate_eq_activated_iff.mp activated
  rw [listing?, if_pos activated, written, Option.getD_some, read] at listed
  have same := Option.some.inj listed
  have input : rule.input = some (rule.input.getD "") := by
    cases given : rule.input with
    | none => simp [given] at nonempty
    | some input => rfl
  unfold ActiveRule.listing at same
  injection same with key description input' output' mode
  exact ⟨rule, here, key.symm, description.symm, input'.symm ▸ input, output'.symm ▸ written⟩

/-- Rules that are listed as the configuration says are those at the active places. -/
theorem holds_of_listings {config : EngineConfig} {active : List ActiveRule}
    (listed : active.map ActiveRule.listing = config.listings) :
    List.Forall₂ config.Holds config.activePlaces active := by
  have all := forall₂_filterMap config.listing? config.rules.zipIdx
  rw [← listings, ← listed, List.forall₂_map_right_iff] at all
  rw [activePlaces, List.forall₂_map_left_iff]
  rw [List.forall₂_iff_zip] at all ⊢
  refine ⟨all.1, fun {candidate active} pair => ?_⟩
  have member := (List.mem_filter.mp (List.of_mem_zip pair).1).1
  exact holds_of_listing (List.mk_mem_zipIdx_iff_getElem?.mp member) (all.2 pair)

end EngineConfig

namespace Engine

variable {ς : Type} {sink : Sink ς} {engine after : Engine ς}

/-- What is at work after a start are the rules at the active places. -/
theorem start_activates (reachable : Reachable sink engine) (idle : engine.running = false)
    {budget : Nat} {config : EngineConfig} {result : Except RuleError StartReport}
    (ends : engine.start budget config = some (after, result)) :
    List.Forall₂ config.Holds config.activePlaces after.active := by
  obtain ⟨base, crew, past, manned⟩ := reachable.manned
  rcases start_idle idle ends with ⟨nothing, _, rfl⟩ | ⟨_, _, _, listed⟩
  · have nowhere : config.activePlaces = [] := by
      rw [EngineConfig.activePlaces, List.map_eq_nil_iff, List.filter_eq_nil_iff]
      rintro ⟨rule, place⟩ member listed
      have activated := (config.listing?_isSome_iff rule place).mp listed
      obtain ⟨complete, _⟩ := rule.fate_eq_activated_iff.mp activated
      have there := List.mem_of_getElem? (List.mk_mem_zipIdx_iff_getElem?.mp member)
      exact nothing ⟨rule, there, complete.counts⟩
    have nobody : engine.active = [] := by
      rw [manned.active, manned.idle idle]
      rfl
    rw [nowhere, failed_active, nobody]
    exact .nil
  · exact EngineConfig.holds_of_listings listed

/-- Over a sink that reports nothing back every configuration can be started. -/
theorem start_ends {kind : ς → Prop} (silent : sink.Silent kind) {remembered : ς}
    (here : kind remembered) (logs : Option RuleLog.Site) (values : List (String × Json))
    (config : EngineConfig) : ∃ ready started,
      (Engine.new sink remembered logs).Publishes values ready ∧ ready.Starts config started := by
  obtain ⟨ready, started, _, _, published, starts, _⟩ :=
    session_hushed silent here logs config values []
  exact ⟨ready, started, published, starts⟩

end Engine

/--
A text passes the check exactly when it has a stream over the bus, whatever the bus, and then the
Polish form that is given is that of the engine's table. So, when an engine that is not running is
started, the complete rules that are at work afterwards are exactly those whose input passes the
check, in the order of the configuration, and no others are. Over a sink that reports nothing back
the start always comes to an end.
-/
theorem check_tells_what_starts {ς : Type} (sink : Sink ς) (config : EngineConfig) :
    (∀ (bus : Bus) (text : String),
      ((∃ polish, Input.check text = .ok polish) ↔
        ∃ stream, Input.evaluate bus text = some stream) ∧
      ∀ polish, Input.check text = .ok polish → (Input.table bus).compile text = .ok polish) ∧
    (∀ (engine after : Engine ς) (budget : Nat) (result : Except RuleError StartReport),
      Engine.Reachable sink engine → engine.running = false →
      engine.start budget config = some (after, result) →
      ∃ places : List Nat, places.Pairwise (· < ·) ∧
        List.Forall₂ config.Holds places after.active ∧
        (∀ report, result = .ok report →
          report.activated = after.active.map ActiveRule.description) ∧
        ∀ place rule, config.rules[place]? = some rule →
          (rule.Complete →
            (place ∈ places ↔ ∃ polish, Input.check (rule.input.getD "") = .ok polish)) ∧
          (place ∈ places → rule.Complete)) ∧
    ∀ (kind : ς → Prop) (remembered : ς) (logs : Option RuleLog.Site)
      (values : List (String × Json)), sink.Silent kind → kind remembered →
      ∃ ready started, (Engine.new sink remembered logs).Publishes values ready ∧
        ready.Starts config started := by
  refine ⟨fun bus text => ⟨Input.check_iff_evaluate bus text, fun _ => Input.compile_of_check bus⟩,
    ?_, fun kind remembered logs values silent here =>
      Engine.start_ends silent here logs values config⟩
  intro engine after budget result reachable idle ends
  refine ⟨config.activePlaces, config.activePlaces_increasing,
    Engine.start_activates reachable idle ends, ?_, ?_⟩
  · rintro report rfl
    rcases Engine.start_idle idle ends with ⟨_, failed, _⟩ | ⟨_, reported, _, listed⟩
    · cases failed
    · obtain rfl := Except.ok.inj reported
      rw [← config.listings_description, ← listed, List.map_map]
      rfl
  · intro place rule there
    rw [config.mem_activePlaces there, rule.fate_eq_activated_iff]
    exact ⟨fun complete => and_iff_right complete, And.left⟩

namespace Engine

namespace Sorted

/-- Two terms without an operator between them. -/
def bad : RuleConfig := ⟨none, some "p q", some "o", some "bad input", false, true⟩

def good : RuleConfig := ⟨some "n", some "not p", some "o", some "good", false, true⟩

theorem bad_complete : bad.Complete :=
  ⟨rfl, by decide, "o", .signal "o" .present, rfl, by decide, by decide⟩

theorem good_complete : good.Complete :=
  ⟨rfl, by decide, "o", .signal "o" .present, rfl, by decide, by decide⟩

theorem check_bad (polish : String) : Input.check "p q" ≠ .ok polish := by
  have refused : Input.check "p q" = .error (.invalid "p q" "q p") := by decide
  rw [refused]
  exact nofun

theorem check_good : Input.check "not p" = .ok "not p" := by decide

end Sorted

/--
Of two complete rules the one is at work whose input passes the check, and has a stream; also where
the engine has been at work before.
-/
theorem sorted_by_the_check :
    (∃ stream, Input.evaluate .empty "not p" = some stream) ∧
    (Input.table .empty).compile "not p" = .ok "not p" ∧
    (∃ started places, Reopened.switched.stop.start 100 Sorted.config =
        some (started, .ok Sorted.report) ∧
      List.Forall₂ Sorted.config.Holds places started.active ∧ 4 ∉ places ∧ 5 ∈ places) ∧
    ∃ ready started, (Engine.new Outlet.sink (.limited none "" false) none).Publishes
      [("p", .int 1)] ready ∧ ready.Starts Sorted.config started := by
  obtain ⟨checks, starts, ends⟩ := check_tells_what_starts Outlet.sink Sorted.config
  have reachable : Reachable Outlet.sink Reopened.switched.stop :=
    (((Reachable.new _ _).starts Reopened.starts_started).publishes Reopened.publishes_switched).stop
  obtain ⟨⟨started, result⟩, goes⟩ := Option.isSome_iff_exists.mp Sorted.starts
  have reported : result = .ok Sorted.report := by
    obtain ⟨ok, _⟩ := result_of_start rfl goes
    rw [ok Sorted.some_count, Sorted.verdict_eq]
  obtain ⟨places, _, holds, _, which⟩ := starts _ _ _ _ reachable rfl goes
  refine ⟨(checks .empty "not p").1.mp ⟨_, Sorted.check_good⟩,
    (checks .empty "not p").2 _ Sorted.check_good, ⟨started, places, ?_, holds, ?_, ?_⟩,
    ends _ _ none _ Outlet.silent rfl⟩
  · rw [goes, reported]
  · intro there
    obtain ⟨polish, checked⟩ := ((which 4 Sorted.bad rfl).1 Sorted.bad_complete).mp there
    exact Sorted.check_bad polish checked
  · exact ((which 5 Sorted.good rfl).1 Sorted.good_complete).mpr ⟨_, Sorted.check_good⟩

end Engine

end Switchboard
