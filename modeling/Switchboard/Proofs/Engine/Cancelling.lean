import Switchboard.Proofs.Engine.ClosedLoop
import Switchboard.Proofs.Engine.LastHeard
import Switchboard.Proofs.Engine.Restart

/-!
# Notifications that are cancelled

What a notification delivers to be cancelled is read as off if there is a state
for being raised and this is not the one for being cancelled. If there is none,
then any notification counts as raised, and so does this one.

A rule is called as soon as its input switches while its output is still the
other way. In a closed loop a rule with such an output can raise it again and
again: the line of the output is written by the rule alone, so that it changes
its bit during a publication elsewhere only because the rule has fired.
-/
namespace Switchboard

open Event Network Switchboard.Stream

/-- Where the input switches while the output is still the other way, the rule fires. -/
theorem Circuit.emits_of_switch {circuit : Circuit} {fed : List (Nat × Option Json)}
    {feed : Nat × Option Json} {action : Action} (before : circuit.truth fed ≠ some action.isOn)
    (after : circuit.truth (fed ++ [feed]) = some action.isOn)
    (output : circuit.shown (fed ++ [feed]) = some !action.isOn) :
    circuit.actions.Emits fed feed action := by
  rcases silent_or_emits circuit.actions fed feed with silent | ⟨other, emits⟩
  · obtain ⟨leaf, incoming⟩ := feed
    have inner : leaf < circuit.outLeaf := by
      by_contra outer
      rw [circuit.truth_output (Nat.not_lt.mp outer)] at after
      exact before after
    have agrees : circuit.Agrees fed := by
      intro i o input shown
      rw [circuit.shown_input inner, shown] at output
      rw [input] at before
      obtain rfl := Option.some.inj output
      exact (Bool.eq_not_of_ne (fun same => before (congrArg some same))).symm
    have same := agrees.of_silent silent _ _ after output
    exact absurd same (by simp)
  · obtain ⟨truth, _⟩ := Circuit.differs_of_emits emits
    obtain rfl : other = action := by
      rw [after] at truth
      revert truth
      cases action <;> cases other <;> decide
    exact emits

namespace Engine

variable {ς : Type} {engine : Engine ς} {sink : Sink ς} {circuits : List Circuit}
variable {events es : List (Event Line Json)}

/-- What the listeners of some circuits may publish. -/
def licence (circuits : List Circuit) : Licence Line Json := fun n call line value =>
  ∃ circuit action, circuits[n]? = some circuit ∧ call = ⟨Action, action⟩ ∧
    circuit.output.MayDeliver 0 action line value

theorem Wired.keeping {network : PlantNetwork ς} (wired : Wired sink network circuits) :
    Keeping (InGeneration 0) (licence circuits) network := by
  intro n s there
  have small : n < circuits.length := by
    rw [← wired.length]
    exact (List.getElem?_eq_some_iff.mp there).1
  have here := List.getElem?_eq_getElem small
  obtain ⟨state, drive, output, stands⟩ := wired.circuit n _ here
  obtain rfl := Option.some.inj (there.symm.trans stands)
  intro action
  refine (drive.confined_fire sink action).mono fun line value may => ?_
  rw [output] at may
  exact ⟨_, action, here, rfl, may⟩

namespace Tracked

variable {path : String} {value : Json} {network : PlantNetwork ς}

/-- What is published in the course of a publication is its value, or comes from a rule. -/
theorem published (tracked : Tracked sink circuits events engine)
    (run : Run engine.network [.script (publication path value)] es network []) (line : Line)
    (sent : Json) (member : .published line sent ∈ es) :
    (line = ⟨0, path⟩ ∧ sent = value) ∨ Licensed (licence circuits) es line sent := by
  have script := confined_publication (ς := ς) path value
  have tame : Tame (InGeneration 0) engine.network [.script (publication path value)] :=
    tracked.tame.put rfl tracked.tame.holds script.tame
  exact tracked.wired.keeping.run tame (List.forall_mem_singleton.mpr script) run line sent member

/-- An output that changes its bit in a publication elsewhere has been driven by its rule. -/
theorem called_of_changed (tracked : Tracked sink circuits events engine)
    (run : Run engine.network [.script (publication path value)] es network []) {n : Nat}
    {circuit : Circuit} (here : circuits[n]? = some circuit)
    (alone : ∀ (m : Nat) (other : Circuit), circuits[m]? = some other →
      other.output.path = circuit.output.path → m = n)
    (elsewhere : path ≠ circuit.output.path) (settable : circuit.output.Settable) {action : Action}
    (before : circuit.output.bitAfter (engine.network.latest circuit.outLine) [] =
      some !action.isOn)
    (after : circuit.output.bitAfter (network.latest circuit.outLine) [] = some action.isOn) :
    .called n ⟨Action, action⟩ ∈ es := by
  obtain ⟨sound, _, _, _⟩ := tracked.run_publication run
  rcases List.eq_nil_or_concat (departures circuit.outLine es) with nothing | ⟨past, last, parts⟩
  · rw [latest_of_none_departed tracked.sound sound nothing, before] at after
    exact absurd (Option.some.inj after) (by simp)
  · have departed : last ∈ departures circuit.outLine es := by simp [parts]
    have latest : network.latest circuit.outLine =
        (departures circuit.outLine (events ++ es)).getLast? := sound.flowing.latest _
    rw [departures_append, parts, List.concat_eq_append, ← List.append_assoc,
      List.getLast?_concat] at latest
    rw [latest, Term.bitAfter_now settable.signal] at after
    rcases tracked.published run _ _ (published_of_departed tracked.sound sound departed) with
      ⟨same, _⟩ | ⟨m, call, called, other, fired, there, rfl, same, gives⟩
    · injection same with _ same
      exact absurd same.symm elsewhere
    · injection same with _ same
      obtain rfl := alone m other there same.symm
      obtain rfl := Option.some.inj (there.symm.trans here)
      obtain ⟨delivered, gives', reads⟩ := settable.reads fired
      obtain rfl : last = delivered := by simpa using gives.symm.trans gives'
      obtain rfl : action = fired := by
        revert after
        rw [reads]
        cases action <;> cases fired <;> decide
      exact called

end Tracked

/-- What is delivered to cancel a notification is read as off only if it is not the raised state. -/
theorem turnOff_heard (sink : Sink ς) (remembered : ς) (logs : Option RuleLog.Site)
    (before between : List (String × Json)) (own : String) (onState : Option String)
    (cleared : String) (message : Option String) (methods : List String) :
    let term := Term.notification own onState (some cleared) message methods
    ∃ engine value after b, (Engine.new sink remembered logs).Publishes before engine ∧
      term.output .turnOff = .ok (some value) ∧
      engine.Publishes (between ++ [(own, value)]) after ∧
      engine.LastHeard term (between ++ [(own, value)]) (some b) ∧
      after.LastHeard term [] (some b) ∧
      (b = false ↔ ∃ raised, onState = some raised ∧ raised ≠ cleared) := by
  intro term
  have delivers : term.output .turnOff =
      .ok (some (notificationValue message (some cleared) methods .turnOff)) := rfl
  have signal : term.path? ≠ none := nofun
  obtain ⟨engine, after, published, published', early, late⟩ :=
    lastHeard_published sink remembered logs before between signal (Term.reading_output delivers)
  refine ⟨engine, _, after, _, published, delivers, published', early, late, ?_⟩
  cases onState with
  | none => exact ⟨nofun, nofun⟩
  | some raised =>
    rw [Option.all_some, beq_eq_false_iff_ne]
    constructor
    · intro differ
      exact ⟨raised, rfl, differ.symm⟩
    · rintro ⟨_, same, differ⟩
      obtain rfl := Option.some.inj same
      exact differ.symm

namespace Looping

variable {kind : ς → Prop} {rank : Nat → Nat}

/-- A session over rules in a closed loop. -/
theorem session {remembered : ς} {config : EngineConfig} (echoing : sink.Echoing kind)
    (here : kind remembered) (logs : Option RuleLog.Site) (layered : Layered config.circuits rank)
    (before after : List (String × Json)) : ∃ ready started engine,
      (Engine.new sink remembered logs).Publishes before ready ∧ ready.Starts config started ∧
      started.Publishes after engine ∧ Looping sink kind rank engine config.circuits := by
  have fresh := Looping.start echoing (layered.first (List.nil_prefix ..)) here logs
  obtain ⟨ready, published, looping, none_active, idle⟩ := fresh.publishAll before
  obtain ⟨started, starts, looping', _⟩ := start_keeps config (Looping sink kind rank)
    (fun looping => looping.generation) (fun still looping => looping.aside still)
    (fun circuit drive start output looping =>
      looping.subscribe circuit drive (layered.first start) output)
    idle none_active looping
  obtain ⟨engine, published', looping'', _, _⟩ := looping'.publishAll after
  exact ⟨ready, started, engine, published, starts, published', looping''⟩

theorem run_publication (looping : Looping sink kind rank engine circuits) (path : String)
    (value : Json) : ∃ es network,
      Run engine.network [.script (publication path value)] es network [] ∧
      Looping sink kind rank (engine.withNetwork network) circuits := by
  obtain ⟨least, network, looping', ends⟩ := looping.publish path value
  obtain ⟨_, published⟩ := ends least (Nat.le_refl _)
  obtain ⟨network', same, run⟩ := run_of_publish published
  obtain rfl : network = network' := congrArg Engine.network same
  exact ⟨_, network, run, looping'⟩

/-- A notification always shows a bit, which agrees with the input. -/
theorem shows (looping : Looping sink kind rank engine circuits)
    (tracked : Tracked sink circuits events engine) (staying : Staying events) {n : Nat}
    {circuit : Circuit} (here : circuits[n]? = some circuit) {own : String}
    {onState offState message : Option String} {methods : List String}
    (notifies : circuit.output = .notification own onState offState message methods) :
    ∃ bits o, engine.Works n circuit bits (some o) ∧
      circuit.output.bitAfter (engine.network.latest circuit.outLine) [] = some o ∧
      ∀ i, circuit.input.valueOn bits = some i → o = i := by
  obtain ⟨bits, output, works, agrees⟩ := looping.works here
  have sees := tracked.sees here (List.nil_append _).symm (fun _ => rfl) staying
  have legible : circuit.output.Legible (engine.network.latest circuit.outLine) := by
    rw [notifies]
    exact fun _ _ _ => nofun
  obtain ⟨o, shown⟩ : ∃ o, circuit.output.bitAfter (engine.network.latest circuit.outLine) [] =
      some o := by
    rw [notifies]
    cases engine.network.latest circuit.outLine <;> exact ⟨_, rfl⟩
  obtain rfl : output = some o := by
    rw [(works.unique sees.works).2, sees.shown legible, shown]
  exact ⟨bits, o, works, shown, fun i value => agrees i o value rfl⟩

/-- Where a publication elsewhere switches the input, the rule has fired, and its output follows. -/
theorem responds (looping : Looping sink kind rank engine circuits)
    (tracked : Tracked sink circuits events engine) (staying : Staying events) {n : Nat}
    {circuit : Circuit} (here : circuits[n]? = some circuit) {own : String}
    {onState offState message : Option String} {methods : List String}
    (notifies : circuit.output = .notification own onState offState message methods)
    {bits : List (Option Bool)} {output : Option Bool} (works : engine.Works n circuit bits output)
    (path : String) (value : Json) (elsewhere : path ≠ own) :
    ∃ last bits' output' actions, engine.Publishes [(path, value)] last ∧
      last.Works n circuit bits' output' ∧ engine.Fires n path value actions ∧
      ∀ action, circuit.input.valueOn bits = some (!action.isOn) →
        circuit.input.valueOn bits' = some action.isOn →
          action ∈ actions ∧ output' = some action.isOn := by
  obtain ⟨_, layered, _⟩ := looping.settled
  obtain ⟨es, network, run, looping'⟩ := looping.run_publication path value
  obtain ⟨sound, tame, wired, staying'⟩ := tracked.run_publication run
  have tracked' : Tracked sink circuits (events ++ es) (engine.withNetwork network) :=
    ⟨tracked.same_sink, sound, tame, wired⟩
  obtain ⟨old, o, works_old, shown, agrees⟩ := looping.shows tracked staying here notifies
  obtain ⟨new, o', works_new, shown', agrees'⟩ :=
    looping'.shows tracked' (staying.append staying') here notifies
  obtain ⟨actions, fired⟩ := (tracked.followed (List.prefix_refl _)).meanwhile
    (tracked'.followed (List.prefix_refl _)) here
  obtain ⟨least, ends⟩ := publish_of_run run
  refine ⟨_, new, some o', actions, ⟨least, fun budget enough => ?_⟩, works_new,
    ⟨least, fun budget enough => by rw [(ends budget enough).2, fired]⟩, ?_⟩
  · simp only [Engine.publishAll, (ends budget enough).1]
  · intro action was_not is_now
    obtain ⟨rfl, rfl⟩ := works.unique works_old
    obtain rfl := agrees _ was_not
    obtain rfl := agrees' _ is_now
    have alone (m : Nat) (other : Circuit) (there : circuits[m]? = some other)
        (same : other.output.path = circuit.output.path) : m = n :=
      layered.apart m n other circuit there here same
    have settable := layered.settable circuit (List.mem_of_getElem? here)
    have called := tracked.called_of_changed run here alone (by rw [notifies]; exact elsewhere)
      settable shown shown'
    exact ⟨mem_of_called called fired, rfl⟩

end Looping

/-- What an output shows that has been fed what it delivers, and when its rule is called. -/
theorem called_at_switch (sink : Sink ς) (remembered : ς) (logs : Option RuleLog.Site)
    (config : EngineConfig) (before after : List (String × Json)) (budget n : Nat)
    (circuit : Circuit) (here : config.circuits[n]? = some circuit)
    (settable : circuit.output.Settable) :
    let trace := (Engine.new sink remembered logs).sessionEvents budget before config after
    calls n trace = (circuit.actions.course (feeds n trace)).2.map (Sigma.mk Action) ∧
      ∀ fed action,
        (∀ value, circuit.output.output action = .ok (some value) →
          circuit.shown (fed ++ [(circuit.outLeaf, some value)]) = some action.isOn) ∧
        ∀ feed, circuit.truth fed ≠ some action.isOn →
          circuit.truth (fed ++ [feed]) = some action.isOn →
          circuit.shown (fed ++ [feed]) = some (!action.isOn) →
            circuit.actions.Emits fed feed action := by
  intro trace
  constructor
  · exact session_followed sink remembered logs config before after budget n circuit here
  · intro fed action
    constructor
    · intro value gives
      obtain ⟨value', gives', reads⟩ := settable.reads action
      obtain rfl : value = value' := by simpa using gives.symm.trans gives'
      rw [circuit.shown_value settable.signal, reads, Option.some_or]
    · intro feed
      exact Circuit.emits_of_switch

/--
What a notification delivers to be cancelled is heard as off if its state for being raised is there
and is another one, and else as on. With such an output a rule sees it off when it has been fed
what cancels it, and is called to raise it when its input comes on while the output is off, with
any rules beside it and over any sink. In a closed loop the output is what the input is, and
whenever a publication on another path switches the input, the rule fires the action for this, so
that what has been cancelled is raised again.
-/
theorem cancelled_and_raised_again (sink : Sink ς) (remembered : ς) (logs : Option RuleLog.Site) :
    (∀ (before between : List (String × Json)) (own : String) (onState : Option String)
      (cleared : String) (message : Option String) (methods : List String),
      let term := Term.notification own onState (some cleared) message methods
      ∃ engine value after b, (Engine.new sink remembered logs).Publishes before engine ∧
        term.output .turnOff = .ok (some value) ∧
        engine.Publishes (between ++ [(own, value)]) after ∧
        engine.LastHeard term (between ++ [(own, value)]) (some b) ∧
        after.LastHeard term [] (some b) ∧
        (b = false ↔ ∃ raised, onState = some raised ∧ raised ≠ cleared)) ∧
    (∀ (config : EngineConfig) (before after : List (String × Json)) (budget n : Nat)
      (circuit : Circuit) (own raised cleared : String) (message : Option String)
      (methods : List String), config.circuits[n]? = some circuit →
      circuit.output = .notification own (some raised) (some cleared) message methods →
      raised ≠ cleared →
      let trace := (Engine.new sink remembered logs).sessionEvents budget before config after
      calls n trace = (circuit.actions.course (feeds n trace)).2.map (Sigma.mk Action) ∧
        ∀ fed action,
          (∀ value, circuit.output.output action = .ok (some value) →
            circuit.shown (fed ++ [(circuit.outLeaf, some value)]) = some action.isOn) ∧
          ∀ feed, circuit.truth fed ≠ some action.isOn →
            circuit.truth (fed ++ [feed]) = some action.isOn →
            circuit.shown (fed ++ [feed]) = some (!action.isOn) →
              circuit.actions.Emits fed feed action) ∧
    ∀ (kind : ς → Prop) (config : EngineConfig) (rank : Nat → Nat)
      (before after : List (String × Json)),
      sink.Echoing kind → kind remembered → Layered config.circuits rank →
      ∃ ready started engine, (Engine.new sink remembered logs).Publishes before ready ∧
        ready.Starts config started ∧ started.Publishes after engine ∧
        ∀ (n : Nat) (rule : ActiveRule), started.active[n]? = some rule →
          ∃ circuit bits output, rule.Follows circuit ∧ engine.Works n circuit bits output ∧
            ∀ own onState offState message methods,
              circuit.output = .notification own onState offState message methods →
              (∀ i, circuit.input.valueOn bits = some i → output = some i) ∧
              ∀ path value, path ≠ own →
                ∃ last bits' output' actions, engine.Publishes [(path, value)] last ∧
                  last.Works n circuit bits' output' ∧ engine.Fires n path value actions ∧
                  ∀ action, circuit.input.valueOn bits = some (!action.isOn) →
                    circuit.input.valueOn bits' = some action.isOn →
                      action ∈ actions ∧ output' = some action.isOn := by
  refine ⟨turnOff_heard sink remembered logs, ?_, ?_⟩
  · intro config before after budget n circuit own raised cleared message methods here notifies
      differ
    have settable : circuit.output.Settable := by
      rw [notifies]
      exact ⟨raised, cleared, rfl, rfl, differ⟩
    exact called_at_switch sink remembered logs config before after budget n circuit here settable
  · intro kind config rank before after echoing here layered
    obtain ⟨ready, started, engine, published, starts, published', looping⟩ :=
      Looping.session echoing here logs layered before after
    obtain ⟨events, tracked, staying, follows, _⟩ := session_rests published starts published'
    refine ⟨ready, started, engine, published, starts, published', ?_⟩
    intro n rule active
    obtain ⟨circuit, at_n, rule_follows⟩ := follows_at follows active
    have works := tracked.works at_n
    refine ⟨circuit, _, _, rule_follows, works, ?_⟩
    intro own onState offState message methods notifies
    constructor
    · intro i value
      obtain ⟨bits, o, works', _, agrees⟩ := looping.shows tracked staying at_n notifies
      obtain ⟨rfl, same⟩ := works'.unique works
      rw [← same, agrees i value]
    · exact looping.responds tracked staying at_n notifies works

namespace Alarm

/-- An alarm that is raised and cancelled. -/
def config : EngineConfig :=
  ⟨[], [⟨none, some "p", some "notifications.x:alert:normal", none, false, true⟩]⟩

def circuit : Circuit where
  input := .operand (.signal "p" .present)
  output := .notification "notifications.x" (some "alert") (some "normal") none []

theorem circuits_eq : config.circuits = [circuit] := rfl

theorem layered : Layered config.circuits id := by
  rw [circuits_eq]
  have only {n : Nat} {other : Circuit} (here : [circuit][n]? = some other) :
      n = 0 ∧ other = circuit := by
    match n with
    | 0 => exact ⟨rfl, (Option.some.inj here).symm⟩
    | _ + 1 => exact nomatch here
  constructor
  · intro other member
    obtain rfl := List.mem_singleton.mp member
    exact ⟨_, _, rfl, rfl, by decide⟩
  · intro i j c d at_i at_j _
    obtain ⟨rfl, _⟩ := only at_i
    obtain ⟨rfl, _⟩ := only at_j
    rfl
  · exact Function.injective_id
  · intro i j c d at_i at_j
    obtain ⟨rfl, rfl⟩ := only at_i
    obtain ⟨rfl, rfl⟩ := only at_j
    decide

def fresh : Engine Outlet := .new Outlet.sink (.limited none "" true) none

def started : Engine Outlet := ((fresh.start 200 config).map Prod.fst).getD fresh

/-- The alarm has been raised and cancelled. -/
def cancelled : Engine Outlet :=
  (started.publishAll 200 [("p", .int 1), ("p", .int 0)]).getD started

/-- The alarm is raised once more. -/
def raised : Engine Outlet := (cancelled.publishAll 200 [("p", .int 1)]).getD cancelled

theorem starts_started : fresh.Starts config started :=
  have ends : fresh.start 200 config =
      some (started, .ok ⟨["p => notifications.x:alert:normal"], [], []⟩) := rfl
  starts_of_some ends

theorem publishes_cancelled : started.Publishes [("p", .int 1), ("p", .int 0)] cancelled :=
  have ends : started.publishAll 200 [("p", .int 1), ("p", .int 0)] = some cancelled := rfl
  publishes_of_some ends

theorem publishes_raised : cancelled.Publishes [("p", .int 1)] raised :=
  have ends : cancelled.publishAll 200 [("p", .int 1)] = some raised := rfl
  publishes_of_some ends

/-- The rule has its circuit, and no other. -/
theorem follows_circuit {rule : ActiveRule} (active : started.active[0]? = some rule)
    {other : Circuit} (follows : rule.Follows other) : other = circuit := by
  have texts : started.active.map (fun rule => (rule.input, rule.output)) =
      [("p", "notifications.x:alert:normal")] := rfl
  have here := congrArg (·[0]?) texts
  rw [List.getElem?_map, active] at here
  obtain ⟨input, output⟩ := Prod.mk.inj (Option.some.inj here)
  have same_input := follows.input
  have same_output := follows.output
  rw [input, show Formula.table.value? "p" = some circuit.input from rfl] at same_input
  rw [output, show Term.ofText? "notifications.x:alert:normal" = some circuit.output from rfl]
    at same_output
  cases other
  cases same_input
  cases same_output
  rfl

/-- What the rule remembers when its input and its output have the same bit. -/
def state (b : Bool) : circuit.actions.State :=
  let side : Option Bool × Bool × Unit := (some b, true, ())
  show (Option Bool × Option Bool) × (Option Bool × Option Bool × Bool × Unit) ×
    (Option Bool × Bool × Unit) from
  ((some b, some b), (some b, side), side)

def drive : Drive := ⟨0, "p => notifications.x:alert:normal", circuit.output, .notify, none⟩

theorem works_cancelled : cancelled.Works 0 circuit [some false] (some false) :=
  ⟨state false, drive, rfl, rfl, rfl, rfl⟩

theorem works_raised : raised.Works 0 circuit [some true] (some true) :=
  ⟨state true, drive, rfl, rfl, rfl, rfl⟩

end Alarm

/-- The alarm is raised, cancelled, and raised again. -/
theorem alarm_raised_again : ∃ actions,
    Alarm.cancelled.Works 0 Alarm.circuit [some false] (some false) ∧
      Alarm.cancelled.Publishes [("p", .int 1)] Alarm.raised ∧
      Alarm.raised.Works 0 Alarm.circuit [some true] (some true) ∧
      Alarm.cancelled.Fires 0 "p" (.int 1) actions ∧ .turnOn ∈ actions := by
  obtain ⟨ready, started, engine, published, starts, published', rules⟩ :=
    (cancelled_and_raised_again Outlet.sink (.limited none "" true) none).2.2 Outlet.Open
      Alarm.config id [] [("p", .int 1), ("p", .int 0)] Outlet.echoing ⟨rfl, rfl, rfl⟩ Alarm.layered
  obtain rfl := published.unique (.nil _)
  obtain rfl := starts.unique Alarm.starts_started
  obtain rfl := published'.unique Alarm.publishes_cancelled
  obtain ⟨rule, active⟩ : ∃ rule, Alarm.started.active[0]? = some rule := ⟨_, rfl⟩
  obtain ⟨circuit, bits, output, follows, works, notifies⟩ := rules 0 rule active
  obtain rfl := Alarm.follows_circuit active follows
  obtain ⟨rfl, rfl⟩ := works.unique Alarm.works_cancelled
  obtain ⟨_, responds⟩ := notifies _ _ _ _ _ rfl
  obtain ⟨last, bits', output', actions, published'', works', fires, switched⟩ :=
    responds "p" (.int 1) (by decide)
  obtain rfl := published''.unique Alarm.publishes_raised
  obtain ⟨rfl, rfl⟩ := works'.unique Alarm.works_raised
  obtain ⟨member, _⟩ := switched .turnOn rfl rfl
  exact ⟨actions, works, published'', works', fires, member⟩

/-- A notification without a state for being raised counts as raised when it has been cancelled. -/
theorem cancelled_heard_as_on : ∃ engine value after,
    Term.ofText? "notifications.x::normal" =
        some (.notification "notifications.x" none (some "normal") none []) ∧
      (Engine.new Outlet.sink (.limited none "" false) none).Publishes [] engine ∧
      (Term.notification "notifications.x" none (some "normal") none []).output .turnOff =
        .ok (some value) ∧
      engine.Publishes [("notifications.x", value)] after ∧
      engine.LastHeard (.notification "notifications.x" none (some "normal") none [])
        [("notifications.x", value)] (some true) ∧
      after.LastHeard (.notification "notifications.x" none (some "normal") none []) []
        (some true) := by
  obtain ⟨engine, value, after, b, published, delivers, published', early, late, reads⟩ :=
    turnOff_heard Outlet.sink (.limited none "" false) none [] [] "notifications.x" none "normal"
      none []
  obtain rfl : b = true := by
    cases b with
    | true => rfl
    | false =>
      obtain ⟨raised, absent, _⟩ := reads.mp rfl
      exact nomatch absent
  exact ⟨engine, value, after, rfl, published, delivers, published', early, late⟩

end Engine

end Switchboard
