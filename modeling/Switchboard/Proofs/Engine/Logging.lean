import Switchboard.Proofs.Engine.Books
import Switchboard.Proofs.Engine.Checking
import Switchboard.Proofs.Rule.LogNames

/-!
# What is in the log of a rule

The logs of rules are told apart by their names only. So the log of a rule
holds the lines of all rules at work whose logs have that name, in the order in
which they have fired, and of no other rules. Which rules these are can be seen
from the configuration. Where the ids of rules are tidy it is the rule alone.
-/
namespace Switchboard

open Event Network

variable {ς : Type}

theorem EngineConfig.holds_at {config : EngineConfig} {places : List Nat} {active : List ActiveRule}
    (holds : List.Forall₂ config.Holds places active) {i place : Nat} {rule : ActiveRule}
    (here : active[i]? = some rule) (placed : places[i]? = some place) : config.Holds place rule :=
  (List.forall₂_iff_zip.mp holds).2
    (List.mem_of_getElem? (List.getElem?_zip_eq_some.mpr ⟨placed, here⟩))

theorem EngineConfig.exists_place {config : EngineConfig} {places : List Nat}
    {active : List ActiveRule} (holds : List.Forall₂ config.Holds places active) {i : Nat}
    {rule : ActiveRule} (here : active[i]? = some rule) : ∃ place, places[i]? = some place := by
  refine ⟨_, List.getElem?_eq_getElem ?_⟩
  rw [holds.length_eq]
  exact (List.getElem?_eq_some_iff.mp here).1

/-- The keys of two active rules name the same log if their places share it. -/
theorem EngineConfig.Holds.directoryName_eq_iff {config : EngineConfig} {place place' : Nat}
    {active active' : ActiveRule} (holds : config.Holds place active)
    (holds' : config.Holds place' active') :
    RuleLog.directoryName active.key = RuleLog.directoryName active'.key ↔
      config.SharesLog place place' := by
  obtain ⟨rule, here, key, _⟩ := holds
  obtain ⟨other, there, key', _⟩ := holds'
  rw [key, key', rule.directoryName_key_eq_iff, config.sharesLog_iff here there]

/-- Whether a log can be made depends on its name only. -/
theorem RuleLog.Site.log?_eq_some_iff {site : RuleLog.Site} {key other directory : String}
    (logs : site.log? key = some directory) : site.log? other = some directory ↔
      RuleLog.directoryName key = RuleLog.directoryName other := by
  have named := Engine.directory_of_log logs
  constructor
  · intro logs'
    exact named.symm.trans (Engine.directory_of_log logs')
  · intro same
    rw [RuleLog.Site.log?, ← same]
    exact logs

theorem Drive.Mans.log_eq_some_iff {drive : Drive} {site : RuleLog.Site} {config : EngineConfig}
    {rule other : ActiveRule} {place place' : Nat} {directory : String}
    (mans : drive.Mans other (some site)) (logs : site.log? rule.key = some directory)
    (holds : config.Holds place rule) (holds' : config.Holds place' other) :
    drive.log = some directory ↔ config.SharesLog place place' := by
  rw [mans.log, Option.bind_some, RuleLog.Site.log?_eq_some_iff logs]
  exact holds.directoryName_eq_iff holds'

namespace Engine

/--
What is in the log of a rule at a certain place of the configuration, when `fired` has been fired
by the rules at some places, and `lines` have been put in logs meanwhile.
-/
structure Filed (site : RuleLog.Site) (config : EngineConfig) (places : List Nat)
    (fired : List Firing) (lines : List (String × String)) (engine : Engine ς) (i : Nat)
    (rule : ActiveRule) (place : Nat) : Prop where
  names : ∀ (j : Nat) (other : ActiveRule) (place' : Nat),
    engine.active[j]? = some other → places[j]? = some place' →
    (RuleLog.directoryName rule.key = RuleLog.directoryName other.key ↔
      config.SharesLog place place')
  log : ∀ directory, site.log? rule.key = some directory →
    lines.filter (fun line => line.1 = directory) =
      (fired.filter fun firing => ∃ place' ∈ places[firing.1.rule]?,
        config.SharesLog place place').flatMap fun firing => firing.1.lines firing.2
  alone : (∀ place' ∈ places, place' ≠ place → ¬ config.SharesLog place place') →
    ∀ directory, site.log? rule.key = some directory →
      lines.filter (fun line => line.1 = directory) =
        (fired.filter fun firing => firing.1.rule = i).flatMap fun firing =>
          firing.1.lines firing.2

/-- What has been fired by rules at work is in the logs that their places tell. -/
theorem filed_of_mans {site : RuleLog.Site} {config : EngineConfig} {places : List Nat}
    {fired : List Firing} {engine : Engine ς} (increasing : places.Pairwise (· < ·))
    (holds : List.Forall₂ config.Holds places engine.active)
    (mans : ∀ firing ∈ fired, ∃ rule, engine.active[firing.1.rule]? = some rule ∧
      firing.1.Mans rule (some site))
    {i : Nat} {rule : ActiveRule} {place : Nat} (here : engine.active[i]? = some rule)
    (placed : places[i]? = some place) :
    engine.Filed site config places fired (fired.flatMap fun firing => firing.1.lines firing.2)
      i rule place := by
  have held := EngineConfig.holds_at holds here placed
  have sharers : ∀ directory, site.log? rule.key = some directory → ∀ firing ∈ fired,
      ∃ place', places[firing.1.rule]? = some place' ∧
        (firing.1.log = some directory ↔ config.SharesLog place place') := by
    intro directory logs firing member
    obtain ⟨other, there, mans⟩ := mans firing member
    obtain ⟨place', placed'⟩ := EngineConfig.exists_place holds there
    have held' := EngineConfig.holds_at holds there placed'
    exact ⟨place', placed', mans.log_eq_some_iff logs held held'⟩
  constructor
  case names =>
    exact fun j other place' there placed' =>
      held.directoryName_eq_iff (EngineConfig.holds_at holds there placed')
  case log =>
    intro directory logs
    refine lines_filter fun firing member => ?_
    obtain ⟨place', placed', shares⟩ := sharers directory logs firing member
    simpa [placed'] using shares
  case alone =>
    intro alone directory logs
    refine lines_filter fun firing member => ?_
    obtain ⟨place', placed', shares⟩ := sharers directory logs firing member
    rw [shares]
    constructor
    · intro shared
      have same : place' = place := by
        by_contra different
        exact alone place' (List.mem_of_getElem? placed') different shared
      have small := (List.getElem?_eq_some_iff.mp placed').1
      refine (List.getElem?_inj small (increasing.imp Nat.ne_of_lt)).mp ?_
      rw [placed', placed, same]
    · rintro rfl
      obtain rfl := Option.some.inj (placed.symm.trans placed')
      exact (held.directoryName_eq_iff held).mp rfl

/--
At every moment after a start, the log of each rule holds, in order, a line for each firing of the
rules at work that share the log with it, and nothing else. Rules share a log exactly when their
keys name the same directory, which the places of the rules in the configuration tell. A rule that
shares its log with no other has its own lines in it only; and where ids are tidy, that is so for
all rules. The moments left out are those at which a rule has just fired and is still at its own
records.
-/
theorem logs_of_sharing_rules {sink : Sink ς} {ready started engine : Engine (List Delivery × ς)}
    (reachable : Reachable sink.recording ready) {budget : Nat} {config : EngineConfig}
    {report : StartReport} (starts : ready.start budget config = some (started, .ok report))
    {before now : List (Event Line Json)}
    (visits : Visits (fun before after => before.1 = after.1) started before engine)
    {network : PlantNetwork (List Delivery × ς)}
    {stack : List (Frame Line Json Entry (Plant (List Delivery × ς)))}
    (visiting : engine.Visiting now network stack)
    (settled : ∀ script rest, stack = .script script :: rest →
      script.Plain Plant.holdings Entry.kept?)
    {site : RuleLog.Site} (kept : engine.site = some site) :
    ∃ (places : List Nat) (fired : List Firing) (lines : List (String × String)),
      places.Pairwise (· < ·) ∧
      List.Forall₂ config.Holds places engine.active ∧
      rowCalls ready.network.subscriptions.length engine.active.length
          (ready.startEvents budget config ++ before ++ now) =
        fired.map (fun firing =>
          (ready.network.subscriptions.length + firing.1.rule, ⟨Action, firing.2⟩)) ∧
      (∀ firing ∈ fired, ∃ rule, engine.active[firing.1.rule]? = some rule ∧
        firing.1.Mans rule (some site)) ∧
      lines = fired.flatMap (fun firing => firing.1.lines firing.2) ∧
      (engine.withNetwork network).ruleLines = ready.ruleLines ++ lines ∧
      ∀ i rule place, engine.active[i]? = some rule → places[i]? = some place →
        engine.Filed site config places fired lines i rule place ∧
        (config.HasTidyIds → ∀ directory, site.log? rule.key = some directory →
          lines.filter (fun line => line.1 = directory) =
            (fired.filter fun firing => firing.1.rule = i).flatMap fun firing =>
              firing.1.lines firing.2) := by
  obtain ⟨crew, _, fired, crewed, _, booked, listed, active⟩ :=
    exists_books reachable starts visits visiting settled
  have increasing := config.activePlaces_increasing
  have holds := start_activates reachable (idle_of_start starts) starts
  rw [← active] at holds
  have mans : ∀ firing ∈ fired, ∃ rule, engine.active[firing.1.rule]? = some rule ∧
      firing.1.Mans rule (some site) := by
    intro firing member
    obtain ⟨rule, there⟩ := booked.members firing member
    refine ⟨rule, ?_, kept ▸ crewed.mans _ _ (List.mem_of_getElem? there)⟩
    rw [listed, List.getElem?_map, there]
    rfl
  refine ⟨config.activePlaces, fired, _, increasing, holds, ?_, mans, rfl, ?_,
    fun i rule place here placed => ?_⟩
  · rw [listed, List.length_map]
    exact booked.called
  · rw [← sight_lines, ← sight_lines]
    exact booked.logged
  · have filed := filed_of_mans increasing holds mans here placed
    exact ⟨filed, fun tidy => filed.alone fun place' _ different => tidy.apart different.symm⟩

namespace Sharing

/-- Two rules whose ids are shown alike, and one that goes by its number. -/
def config : EngineConfig :=
  ⟨[], [⟨some "a b", some "p", some "x", none, false, true⟩,
    ⟨some "a_b", some "q", some "y", none, false, true⟩,
    ⟨none, some "p", some "z", none, false, true⟩]⟩

def site : RuleLog.Site := ⟨"logs", fun _ => .nothing⟩

def fresh : Engine (List Delivery × Outlet) :=
  .new Outlet.sink.recording ([], .limited none "" false) (some site)

def started : Engine (List Delivery × Outlet) :=
  ((fresh.start 100 config).map Prod.fst).getD fresh

def switched : Engine (List Delivery × Outlet) :=
  ((started.publish 100 "p" (.int 1)).map Prod.fst).getD started

def switchedAgain : Engine (List Delivery × Outlet) :=
  ((switched.publish 100 "q" (.int 1)).map Prod.fst).getD switched

def trace : List (Event Line Json) :=
  fresh.startEvents 100 config ++
    (started.publishEvents 100 "p" (.int 1) ++ switched.publishEvents 100 "q" (.int 1)) ++ []

theorem starts_started : fresh.start 100 config =
    some (started, .ok ⟨["p => x", "q => y", "p => z"], [], []⟩) := by rfl

theorem publishes_switched : started.publish 100 "p" (.int 1) = some (switched, 2) := by rfl

theorem publishes_switchedAgain :
    switched.publish 100 "q" (.int 1) = some (switchedAgain, 1) := by rfl

theorem calls_trace :
    rowCalls fresh.network.subscriptions.length switchedAgain.active.length trace =
      [0, 2, 1].map fun rule => (rule, ⟨Action, Action.turnOn⟩) := by rfl

theorem reachable_fresh : Reachable Outlet.sink.recording fresh := .new _ _

theorem site_switchedAgain : switchedAgain.site = some site := by rfl

theorem active_switchedAgain : ∃ first second third : ActiveRule,
    switchedAgain.active = [first, second, third] ∧ site.log? first.key = some "a_b" ∧
      site.log? second.key = some "a_b" ∧ site.log? third.key = some "3" :=
  ⟨_, _, _, rfl, by decide, by decide, by decide⟩

theorem shares_self : config.SharesLog 0 0 := by decide

theorem shares : config.SharesLog 0 1 := by decide

theorem apart : ¬ config.SharesLog 0 2 := by decide

theorem none_written : fresh.ruleLines = [] := rfl

theorem none_before : fresh.network.subscriptions.length = 0 := rfl

theorem visits_switchedAgain : Visits (fun before after => before.1 = after.1) started
    (started.publishEvents 100 "p" (.int 1) ++ switched.publishEvents 100 "q" (.int 1))
    switchedAgain :=
  .more (.more .none (.published publishes_switched)) (.published publishes_switchedAgain)

theorem visiting_switchedAgain : switchedAgain.Visiting [] switchedAgain.network [] :=
  .performing .done (.step rfl (.still _ _))

end Sharing

/--
The lines of two rules whose ids are shown alike are in one log. The rule that goes by its number
has its own.
-/
theorem logs_of_alike_ids : ∃ first second third : Drive,
    first.rule = 0 ∧ second.rule = 1 ∧ third.rule = 2 ∧
    first.log = some "a_b" ∧ second.log = some "a_b" ∧ third.log = some "3" ∧
    Sharing.switchedAgain.ruleLines.filter (fun line => line.1 = "a_b") =
      first.lines .turnOn ++ second.lines .turnOn ∧
    Sharing.switchedAgain.ruleLines.filter (fun line => line.1 = "3") = third.lines .turnOn := by
  obtain ⟨places, fired, lines, increasing, holds, called, mans, _, logged, filed⟩ :=
    logs_of_sharing_rules Sharing.reachable_fresh Sharing.starts_started
      Sharing.visits_switchedAgain Sharing.visiting_switchedAgain nofun Sharing.site_switchedAgain
  obtain ⟨rule, rule₁, rule₂, active, logs, logs₁, logs₂⟩ := Sharing.active_switchedAgain
  have here : Sharing.switchedAgain.active[0]? = some rule := by rw [active]; rfl
  have here₁ : Sharing.switchedAgain.active[1]? = some rule₁ := by rw [active]; rfl
  have here₂ : Sharing.switchedAgain.active[2]? = some rule₂ := by rw [active]; rfl
  rw [Sharing.none_written, List.nil_append, withNetwork_self] at logged
  -- the rules are at work in the order of the configuration
  obtain ⟨a, b, c, rfl⟩ : ∃ a b c, places = [a, b, c] := by
    refine List.length_eq_three.mp (holds.length_eq.trans ?_)
    rw [active]
    rfl
  obtain ⟨rfl, rfl, rfl⟩ : a = 0 ∧ b = 1 ∧ c = 2 := by
    obtain ⟨_, there, _⟩ := EngineConfig.holds_at holds here₂ rfl
    have last : c < 3 := (List.getElem?_eq_some_iff.mp there).1
    simp only [List.pairwise_cons, List.mem_cons, forall_eq_or_imp] at increasing
    omega
  -- three actions have been fired
  have called := Sharing.calls_trace.symm.trans called
  rw [Sharing.none_before] at called
  obtain ⟨⟨first, _⟩, _, rfl, first_called, called⟩ := List.map_eq_cons_iff.mp called.symm
  obtain ⟨⟨third, _⟩, _, rfl, third_called, called⟩ := List.map_eq_cons_iff.mp called
  obtain ⟨⟨second, _⟩, _, rfl, second_called, called⟩ := List.map_eq_cons_iff.mp called
  obtain rfl := List.map_eq_nil_iff.mp called
  obtain ⟨first_rule, rfl⟩ : first.rule = 0 ∧ _ = Action.turnOn := by simpa using first_called
  obtain ⟨third_rule, rfl⟩ : third.rule = 2 ∧ _ = Action.turnOn := by simpa using third_called
  obtain ⟨second_rule, rfl⟩ : second.rule = 1 ∧ _ = Action.turnOn := by simpa using second_called
  have log_of : ∀ {drive : Drive} {i : Nat} {rule : ActiveRule} {directory : String},
      (drive, Action.turnOn) ∈ [(first, Action.turnOn), (third, .turnOn), (second, .turnOn)] →
      drive.rule = i → Sharing.switchedAgain.active[i]? = some rule →
      Sharing.site.log? rule.key = some directory → drive.log = some directory := by
    intro drive i rule directory member place here logs
    obtain ⟨rule', there, mans⟩ := mans _ member
    obtain rfl := Option.some.inj (here.symm.trans (place ▸ there))
    exact mans.log.trans ((Option.bind_some _ _).trans logs)
  refine ⟨first, second, third, first_rule, second_rule, third_rule,
    log_of (by simp) first_rule here logs, log_of (by simp) second_rule here₁ logs₁,
    log_of (by simp) third_rule here₂ logs₂, ?_, ?_⟩
  · have shared := (filed 0 rule 0 here rfl).1.log "a_b" logs
    rw [logged, shared]
    simp [first_rule, second_rule, third_rule, Sharing.shares, Sharing.shares_self, Sharing.apart]
  · have alone := (filed 2 rule₂ 2 here₂ rfl).1.alone (by decide) "3" logs₂
    rw [logged, alone]
    simp [first_rule, second_rule, third_rule]

end Engine

end Switchboard
