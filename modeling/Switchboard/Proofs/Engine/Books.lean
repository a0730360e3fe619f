import Switchboard.Proofs.Engine.Reach
import Switchboard.Proofs.Engine.Tallying
import Switchboard.Proofs.Engine.Updates

/-!
# The books of the rules

A rule that fires counts the action, writes a line to its log and makes an
offer to the sink, and it does so before anything that it reports back can
make it fire again. So the tallies, the logs and the offers all tell of the
same actions in the same order, however rules have set off each other. Of the
firings of all rules at work together one list is kept, and each record is read
off it.
-/
namespace Switchboard

open Event Network

variable {ς : Type}

/-- A rule that has fired an action. -/
abbrev Firing := Drive × Action

/-- The actions that the rule with a certain number has fired. -/
def own (rule : Nat) (fired : List Firing) : List Action :=
  fired.filterMap fun firing => if firing.1.rule = rule then some firing.2 else none

theorem own_eq (rule : Nat) (fired : List Firing) :
    own rule fired = (fired.filter fun firing => firing.1.rule = rule).map Prod.snd := by
  induction fired with
  | nil => rfl
  | cons firing rest ih =>
    rw [own, List.filterMap_cons, ← own, ih]
    by_cases here : firing.1.rule = rule <;> simp [here]

theorem own_snoc (rule : Nat) (fired : List Firing) (firing : Firing) :
    own rule (fired ++ [firing]) =
      own rule fired ++ if firing.1.rule = rule then [firing.2] else [] := by
  rw [own, List.filterMap_append]
  by_cases here : firing.1.rule = rule <;> simp [own, here]

/-- The lines in one log are those of the firings of rules that have this log. -/
theorem lines_filter {fired : List Firing} {directory : String} {mine : Firing → Prop}
    [DecidablePred mine]
    (whose : ∀ firing ∈ fired, (firing.1.log = some directory ↔ mine firing)) :
    (fired.flatMap fun firing => firing.1.lines firing.2).filter (fun line => line.1 = directory) =
      (fired.filter mine).flatMap fun firing => firing.1.lines firing.2 := by
  have same : (fired.filter fun firing => firing.1.log = some directory) = fired.filter mine :=
    List.filter_congr fun firing member => decide_eq_decide.mpr (whose firing member)
  rw [← same]
  clear whose same
  induction fired with
  | nil => rfl
  | cons firing rest ih =>
    rw [List.flatMap_cons, List.filter_append, ih, List.filter_cons]
    cases logs : firing.1.log with
    | none => simp [Drive.lines, logs]
    | some directory' => by_cases same : directory' = directory <;> simp [Drive.lines, logs, same]

namespace Event

variable {κ ν : Type} {base count : Nat} {es more : List (Event κ ν)}

/-- A call of one of some subscriptions with numbers in a row, with its number. -/
def rowCall? (base count : Nat) : Event κ ν → Option (Nat × (α : Type) × α)
  | .called n value => if base ≤ n ∧ n < base + count then some (n, value) else none
  | _ => none

/-- The calls of some subscriptions with numbers in a row. -/
def rowCalls (base count : Nat) (es : List (Event κ ν)) : List (Nat × (α : Type) × α) :=
  es.filterMap (rowCall? base count)

theorem rowCalls_append (base count : Nat) (es more : List (Event κ ν)) :
    rowCalls base count (es ++ more) = rowCalls base count es ++ rowCalls base count more :=
  List.filterMap_append

/-- The calls of one of them. -/
theorem calls_of_rowCalls {n : Nat} (from_base : base ≤ n) (small : n < base + count)
    (es : List (Event κ ν)) : calls n es =
      (rowCalls base count es).filterMap fun call => if call.1 = n then some call.2 else none := by
  rw [calls, rowCalls, List.filterMap_filterMap]
  congr 1
  funext e
  cases e with
  | called m value =>
    by_cases same : m = n
    · subst same
      simp [call?, rowCall?, from_base, small]
    · simp only [call?, rowCall?, if_neg same]
      split <;> simp [same]
  | _ => rfl

/-- One more subscription in the row changes nothing if it has not been called. -/
theorem rowCalls_succ (uncalled : calls (base + count) es = []) :
    rowCalls base (count + 1) es = rowCalls base count es := by
  refine List.filterMap_congr fun e member => ?_
  have uncalled : call? (base + count) e = none := List.filterMap_eq_nil_iff.mp uncalled e member
  cases e with
  | called n value =>
    have other : n ≠ base + count := by
      rintro rfl
      simp [call?] at uncalled
    simp only [rowCall?]
    congr 1
    exact propext ⟨fun _ => by omega, fun _ => by omega⟩
  | _ => rfl

end Event

/--
Tallies, offers and rule logs agree with what has been fired, apart from the offers and the lines
that there were before.
-/
structure Booked (base : Nat) (offered : List Delivery) (lines : List (String × String))
    (fired : List Firing) (crew : Crew) (es : List (Event Line Json))
    (now : Sight (List Delivery × ς)) : Prop where
  places : ∀ (i : Nat) (drive : Drive) (rule : ActiveRule),
    crew[i]? = some (drive, rule) → drive.rule = i
  members : ∀ firing ∈ fired, ∃ rule, crew[firing.1.rule]? = some (firing.1, rule)
  called : rowCalls base crew.length es =
    fired.map fun firing => (base + firing.1.rule, ⟨Action, firing.2⟩)
  length : now.1.tallies.length = crew.length
  tallies : ∀ (i : Nat) (drive : Drive) (rule : ActiveRule), crew[i]? = some (drive, rule) →
    now.1.tallies[i]? = some (drive.tally (own i fired))
  offered : now.1.sink.1 = offered ++ fired.flatMap fun firing => firing.1.offers firing.2
  logged : now.2.filterMap Entry.ruleLine? =
    lines ++ fired.flatMap fun firing => firing.1.lines firing.2

namespace Booked

variable {base : Nat} {offered : List Delivery} {lines : List (String × String)}
variable {fired : List Firing} {crew : Crew} {es : List (Event Line Json)}
variable {now : Sight (List Delivery × ς)}

/-- The books are opened when no rules are at work. -/
theorem opened (base : Nat) (now : Sight (List Delivery × ς)) (none_tallied : now.1.tallies = []) :
    Booked base now.1.sink.1 (now.2.filterMap Entry.ruleLine?) [] [] [] now where
  places _ _ _ here := by simp at here
  members := nofun
  called := rfl
  length := congrArg List.length none_tallied
  tallies _ _ _ here := by simp at here
  offered := (List.append_nil _).symm
  logged := (List.append_nil _).symm

/-- What is no call of a rule is not entered. -/
theorem aside (booked : Booked base offered lines fired crew es now) {e : Event Line Json}
    (other : ∀ i value, i < crew.length → e ≠ .called (base + i) value) :
    Booked base offered lines fired crew (es ++ [e]) now where
  places := booked.places
  members := booked.members
  called := by
    have nothing : rowCall? base crew.length e = none := by
      cases e with
      | called n value =>
        refine if_neg fun inside => ?_
        obtain ⟨i, rfl⟩ := Nat.exists_eq_add_of_le inside.1
        exact other i value (by omega) rfl
      | _ => rfl
    rw [rowCalls_append, booked.called, rowCalls, List.filterMap_cons_none nothing]
    exact List.append_nil _
  length := booked.length
  tallies := booked.tallies
  offered := booked.offered
  logged := booked.logged

/-- An action is entered at the end. -/
theorem fires (booked : Booked base offered lines fired crew es now) {i : Nat} {drive : Drive}
    {rule : ActiveRule} (here : crew[i]? = some (drive, rule)) (action : Action)
    {next : Sight (List Delivery × ς)}
    (tallies : next.1.tallies = now.1.tallies.modify drive.rule (drive.counted action))
    (offers : next.1.sink.1 = now.1.sink.1 ++ drive.offers action)
    (writes : next.2.filterMap Entry.ruleLine? =
      now.2.filterMap Entry.ruleLine? ++ drive.lines action) :
    Booked base offered lines (fired ++ [(drive, action)]) crew
      (es ++ [.called (base + i) ⟨Action, action⟩]) next where
  places := booked.places
  members := by
    refine List.forall_mem_append.mpr ⟨booked.members, List.forall_mem_singleton.mpr ⟨rule, ?_⟩⟩
    rw [booked.places i drive rule here]
    exact here
  called := by
    have small : i < crew.length := (List.getElem?_eq_some_iff.mp here).1
    have entered : rowCalls base crew.length [(.called (base + i) ⟨Action, action⟩ : Event Line Json)] =
        [(base + i, ⟨Action, action⟩)] := by
      simp [rowCalls, rowCall?, small]
    rw [rowCalls_append, booked.called, entered, List.map_append, List.map_singleton,
      booked.places i drive rule here]
  length := by rw [tallies, List.length_modify, booked.length]
  tallies j drive' rule' there := by
    rw [tallies, List.getElem?_modify, booked.tallies j drive' rule' there, own_snoc,
      booked.places i drive rule here]
    by_cases same : i = j
    · subst same
      obtain ⟨rfl, _⟩ := Prod.mk.inj (Option.some.inj (here.symm.trans there))
      simp [Drive.tally]
    · simp [same]
  offered := by
    rw [offers, booked.offered, List.flatMap_append, List.append_assoc]
    simp
  logged := by
    rw [writes, booked.logged, List.flatMap_append, List.append_assoc]
    simp

/-- Who has not joined has fired nothing. -/
theorem own_next (booked : Booked base offered lines fired crew es now) :
    own crew.length fired = [] := by
  refine List.filterMap_eq_nil_iff.mpr fun firing member => if_neg fun place => ?_
  obtain ⟨_, there⟩ := booked.members firing member
  exact Nat.ne_of_lt (List.getElem?_eq_some_iff.mp there).1 place

/-- A rule joins that has fired nothing yet. -/
theorem joins (booked : Booked base offered lines fired crew es now) {drive : Drive}
    {rule : ActiveRule} (place : drive.rule = crew.length)
    (uncalled : calls (base + crew.length) es = []) {next : Sight (List Delivery × ς)}
    (tallies : next.1.tallies = now.1.tallies ++ [.zero]) (same_sink : next.1.sink = now.1.sink)
    (same_lines : next.2 = now.2) :
    Booked base offered lines fired (crew ++ [(drive, rule)]) es next where
  places i drive' rule' here := by
    rcases getElem?_snoc_cases here with before | ⟨rfl, same⟩
    · exact booked.places i drive' rule' before
    · obtain ⟨rfl, _⟩ := Prod.mk.inj same
      exact place
  members firing member := by
    obtain ⟨rule', there⟩ := booked.members firing member
    exact ⟨rule', (List.getElem?_append_left (List.getElem?_eq_some_iff.mp there).1).trans there⟩
  called := by rw [List.length_append, List.length_singleton, rowCalls_succ uncalled, booked.called]
  length := by simp [tallies, booked.length]
  tallies i drive' rule' here := by
    rw [tallies]
    rcases getElem?_snoc_cases here with before | ⟨rfl, same⟩
    · have small : i < now.1.tallies.length := by
        rw [booked.length]
        exact (List.getElem?_eq_some_iff.mp before).1
      rw [List.getElem?_append_left small]
      exact booked.tallies i drive' rule' before
    · rw [booked.own_next, ← booked.length]
      exact List.getElem?_concat_length
  offered := by rw [same_sink, booked.offered]
  logged := by rw [same_lines, booked.logged]

/-- Firings of the same number are firings of the same rule. -/
theorem only (booked : Booked base offered lines fired crew es now) {i : Nat} {drive : Drive}
    {rule : ActiveRule} (here : crew[i]? = some (drive, rule)) {firing : Firing}
    (member : firing ∈ fired) (place : firing.1.rule = i) : firing.1 = drive := by
  obtain ⟨_, there⟩ := booked.members firing member
  rw [place] at there
  exact (Prod.mk.inj (Option.some.inj (there.symm.trans here))).1

/-- A rule has fired what its subscription has been called with. -/
theorem calls (booked : Booked base offered lines fired crew es now) {i : Nat}
    (small : i < crew.length) : Event.calls (base + i) es = (own i fired).map (Sigma.mk Action) := by
  rw [calls_of_rowCalls (Nat.le_add_right base i) (Nat.add_lt_add_left small base), booked.called,
    own, List.filterMap_map, List.map_filterMap]
  congr 1
  funext firing
  by_cases same : firing.1.rule = i <;> simp [same]

/-- What a rule has put in its log, if no other rule has the same log. -/
theorem log (booked : Booked base offered lines fired crew es now) {i : Nat} {drive : Drive}
    {rule : ActiveRule} (here : crew[i]? = some (drive, rule)) {directory : String}
    (logs : drive.log = some directory) (alone : ∀ (j : Nat) (other : Drive) (rule' : ActiveRule),
      crew[j]? = some (other, rule') → j ≠ i → other.log ≠ some directory) :
    (fired.flatMap fun firing => firing.1.lines firing.2).filter (fun line => line.1 = directory) =
      (own i fired).map fun action =>
        (directory, RuleLog.line directory drive.description action (drive.outcomeText action)) := by
  have whose : ∀ firing ∈ fired, (firing.1.log = some directory ↔ firing.1.rule = i) := by
    intro firing member
    obtain ⟨rule', there⟩ := booked.members firing member
    refine ⟨fun logged => ?_, fun same => booked.only here member same ▸ logs⟩
    by_contra different
    exact alone _ _ _ there different logged
  rw [lines_filter whose, own_eq, List.map_map, List.map_eq_flatMap]
  refine List.flatMap_congr fun firing member => ?_
  obtain ⟨member, same⟩ := List.mem_filter.mp member
  obtain rfl := booked.only here member (of_decide_eq_true same)
  simp [Drive.lines, logs]

end Booked

/-- Tallies, offers and logs are kept right whatever happens. -/
theorem books (sink : Sink ς) (base : Nat) (offered : List Delivery)
    (lines : List (String × String)) :
    Bookkeeping sink.recording (fun before after => before.1 = after.1) base
      fun crew es now => ∃ fired, Booked base offered lines fired crew es now where
  aside other := fun ⟨fired, booked⟩ => ⟨fired, booked.aside other⟩
  fires {_ _ i drive rule action plant told} here _ := fun ⟨fired, booked⟩ => by
    obtain ⟨offers, tallies⟩ := drive.recorded_fire sink action plant
    refine ⟨_, booked.fires here action tallies offers ?_⟩
    rw [List.filterMap_append, drive.told_fire]
  counts := fun ⟨_, booked⟩ => booked.length
  joins place uncalled := fun ⟨fired, booked⟩ =>
    ⟨fired, booked.joins place uncalled rfl rfl rfl⟩
  shows tallies remembered lines := fun ⟨fired, booked⟩ =>
    ⟨fired, { booked with
      length := by rw [tallies]; exact booked.length
      tallies := by rw [tallies]; exact booked.tallies
      offered := by rw [remembered]; exact booked.offered
      logged := by rw [lines]; exact booked.logged }⟩
  adjusts same := fun ⟨fired, booked⟩ =>
    ⟨fired, { booked with offered := same.symm.trans booked.offered }⟩

namespace Engine

theorem directory_of_log {site : RuleLog.Site} {key directory : String}
    (logs : site.log? key = some directory) : directory = RuleLog.directoryName key := by
  unfold RuleLog.Site.log? at logs
  split at logs
  · exact (Option.some.inj logs).symm
  · cases logs

/--
The books that have been kept since a start. Who has just fired and is still at its own records is
left out.
-/
theorem exists_books {sink : Sink ς} {ready started engine : Engine (List Delivery × ς)}
    (reachable : Reachable sink.recording ready) {budget : Nat} {config : EngineConfig}
    {report : StartReport} (starts : ready.start budget config = some (started, .ok report))
    {before now : List (Event Line Json)}
    (visits : Visits (fun before after => before.1 = after.1) started before engine)
    {network : PlantNetwork (List Delivery × ς)}
    {stack : List (Frame Line Json Entry (Plant (List Delivery × ς)))}
    (visiting : engine.Visiting now network stack)
    (settled : ∀ script rest, stack = .script script :: rest →
      script.Plain Plant.holdings Entry.kept?) :
    ∃ (crew : Crew) (past : List (Event Line Json)) (fired : List Firing),
      engine.Crewed sink.recording (fun crew es now => ∃ fired,
          Booked ready.network.subscriptions.length ready.plant.sink.1
            (ready.sight.2.filterMap Entry.ruleLine?) fired crew es now)
        ready.network.subscriptions.length crew past (ready.startEvents budget config ++ before) ∧
      Staffed sink.recording (fun crew es now => ∃ fired,
          Booked ready.network.subscriptions.length ready.plant.sink.1
            (ready.sight.2.filterMap Entry.ruleLine?) fired crew es now)
        ready.network.subscriptions.length crew past (ready.startEvents budget config ++ before ++ now)
        network stack ∧
      Booked ready.network.subscriptions.length ready.plant.sink.1
        (ready.sight.2.filterMap Entry.ruleLine?) fired crew
        (ready.startEvents budget config ++ before ++ now)
        (network.seen Plant.holdings Entry.kept?) ∧
      engine.active = crew.map Prod.snd ∧ engine.active = started.active := by
  obtain ⟨crew, past, crewed, _, listed, _⟩ := reachable.opens (books sink _ _ _)
    (fun none_tallied => ⟨[], .opened _ _ none_tallied⟩) starts
  obtain ⟨crewed, active, _⟩ := crewed.visits (books sink _ _ _) visits
  have staffed := crewed.visiting (books sink _ _ _).toLedger visiting
  -- whoever is at work has nothing left to do that is on record
  have seen : network.foreseen Plant.holdings Entry.kept? stack =
      network.seen Plant.holdings Entry.kept? := by
    cases stack with
    | nil => rfl
    | cons frame rest =>
      cases frame with
      | script script => exact foreseen_plain (settled script rest rfl)
      | fanOut | opening => rfl
  obtain ⟨fired, booked⟩ := staffed.holds
  rw [seen] at booked
  exact ⟨crew, past, fired, crewed, staffed, booked, active.trans listed, active⟩

/-- An engine over a watched sink stands as one over the sink itself does. -/
theorem mirrors_recording (sink : Sink ς) (offered : List Delivery) (remembered : ς)
    (logs logs' : Option RuleLog.Site) :
    (Engine.new sink.recording (offered, remembered) logs).Mirrors
      (fun recorded remembered => recorded.2 = remembered) (Engine.new sink remembered logs') :=
  ⟨sink.recording_agrees, ⟨rfl, .nil, rfl, rfl, rfl⟩, rfl, rfl⟩

namespace Watched

def fresh : Engine (List Delivery × Outlet) :=
  .new Outlet.sink.recording ([], .limited none "" true) (some ⟨"logs", fun _ => .nothing⟩)

def started : Engine (List Delivery × Outlet) :=
  ((fresh.start 100 Echo.config).map Prod.fst).getD fresh

/-- The rule has switched its output on, and has been told so. -/
def switched : Engine (List Delivery × Outlet) :=
  ((started.publish 100 "p" (.int 1)).map Prod.fst).getD started

def trace : List (Event Line Json) :=
  fresh.startEvents 100 Echo.config ++ started.publishEvents 100 "p" (.int 1) ++ []

theorem calls_trace : calls 0 trace = [Action.turnOn].map (Sigma.mk Action) := rfl

theorem starts_started : fresh.start 100 Echo.config = some (started, .ok ⟨["p => o"], [], []⟩) :=
  rfl

theorem publishes_switched : started.publish 100 "p" (.int 1) = some (switched, 1) := rfl

end Watched

end Engine

end Switchboard
