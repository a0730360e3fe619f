import Switchboard.Proofs.Engine.Budget
import Switchboard.Proofs.Engine.LastHeard
import Switchboard.Proofs.Engine.Updates
import Switchboard.Proofs.Engine.View

/-!
# Coming late

Who comes late to a term knows only the latest value on its line. If that one
is a bit for the term, the early and the late agree. If it is none, the late
have nothing, while the early keep the last bit that there was.

An engine that is stopped takes all its rules back, and when it is started
again it makes the same ones anew, which then come late. They see what the old
ones have seen of every line that is legible and that the start leaves as it
was. Over a sink that reports nothing back a start leaves all lines as they
were.
-/
namespace Switchboard

open Event Network

namespace Engine

variable {ς : Type} {engine after : Engine ς}

/-- What taking leaves away keeps, and what goes unnoticed by listeners, is kept by a stop. -/
theorem stop_keeps (Holds : Engine ς → Prop)
    (detach : ∀ engine registrations, Holds engine → Holds (engine.detach registrations))
    (aside : ∀ {engine after}, engine.Aside after → Holds engine → Holds after)
    (holds : Holds engine) : Holds engine.stop := by
  have release (rules : List ActiveRule) (engine : Engine ς) (holds : Holds engine) :
      Holds (rules.foldl (fun engine rule => engine.detach rule.handle.released) engine) := by
    induction rules generalizing engine with
    | nil => exact holds
    | cons rule rest ih => exact ih _ (detach engine _ holds)
  unfold Engine.stop
  split
  · refine aside ?_ (release engine.active engine holds)
    exact ⟨rfl, ⟨rfl, rfl⟩, rfl, rfl⟩
  · exact holds

/-- An engine that has been stopped is ready to be started. -/
theorem stop_at_rest (works : engine.running = true ∨ engine.active = []) :
    engine.stop.active = [] ∧ engine.stop.running = false := by
  unfold Engine.stop
  split
  · exact ⟨rfl, rfl⟩
  · rename_i stopped
    exact ⟨works.resolve_left stopped, Bool.eq_false_iff.mpr stopped⟩

section Tracked

variable {sink : Sink ς} {circuits : List Circuit} {events : List (Event Line Json)}

theorem Tracked.detach (tracked : Tracked sink circuits events engine)
    (registrations : List (Registration Line)) :
    Tracked sink circuits (events ++ registrations.map .detached)
      (engine.detach registrations) := by
  have run := run_detach engine.network registrations
  have same : (engine.detach registrations).network.subscriptions = engine.network.subscriptions :=
    detach_subscriptions ..
  constructor
  · exact tracked.same_sink
  · exact (tracked.sound.script _).run run
  · refine ⟨?_, nofun, ?_⟩
    · rw [same]
      exact tracked.tame.listeners
    · rw [show (engine.detach registrations).network.memory = engine.network.memory
        from detach_memory ..]
      exact tracked.tame.holds
  · exact tracked.wired.keeps run.keeps (congrArg List.length same)

/-- Rules that have been released stay among the subscriptions. -/
theorem Tracked.stop (tracked : Tracked sink circuits events engine) :
    ∃ es, Tracked sink circuits (events ++ es) engine.stop := by
  refine stop_keeps (fun engine => ∃ es, Tracked sink circuits (events ++ es) engine) ?_ ?_ ?_
  · rintro engine registrations ⟨es, tracked⟩
    have detached := tracked.detach registrations
    rw [List.append_assoc] at detached
    exact ⟨_, detached⟩
  · rintro engine after still ⟨es, tracked⟩
    exact ⟨es, tracked.aside still⟩
  · exact ⟨[], by rwa [List.append_nil]⟩

end Tracked

/-- What a rule remembers that has seen everything that is legible. -/
structure Sees (engine : Engine ς) (n : Nat) (circuit : Circuit) (bits : List (Option Bool))
    (output : Option Bool) : Prop where
  works : engine.Works n circuit bits output
  operands : ∀ (i : Nat) (term : Term), circuit.input.operands[i]? = some term →
    term.Legible (engine.network.latest (Bus.empty.line term.path)) →
      bits[i]? = some (term.bitAfter (engine.network.latest (Bus.empty.line term.path)) [])
  shown : circuit.output.Legible (engine.network.latest circuit.outLine) →
    output = circuit.output.bitAfter (engine.network.latest circuit.outLine) []

theorem Tracked.sees {sink : Sink ς} {circuits : List Circuit} {events : List (Event Line Json)}
    (tracked : Tracked sink circuits events engine) {n : Nat} {circuit : Circuit}
    (here : circuits[n]? = some circuit) {before after : List (Event Line Json)}
    (split : events = before ++ after) (unattached : ∀ leaf, currents n leaf before = [])
    (staying : Staying after) :
    engine.Sees n circuit (circuit.bitsAfter (feeds n events))
      (circuit.shown (feeds n events)) := by
  obtain ⟨state, drive, _, stands⟩ := tracked.wired.circuit n circuit here
  have abiding : Abiding events engine.network n :=
    ⟨tracked.sound, before, after, split, unattached, staying⟩
  constructor
  · exact tracked.works here
  · exact fun i term operand => Circuit.bit_of_legible abiding stands operand
  · exact Circuit.shown_of_legible abiding stands

section Session

variable {sink : Sink ς} {remembered : ς} {logs : Option RuleLog.Site} {config : EngineConfig}
variable {before after : List (String × Json)} {ready started engine restarted : Engine ς}

/-- Before the stop and after the second start, the rules see all that is legible. -/
theorem session_sees (published : (Engine.new sink remembered logs).Publishes before ready)
    (starts : ready.Starts config started) (published' : started.Publishes after engine)
    (starts' : engine.stop.Starts config restarted) :
    List.Forall₂ ActiveRule.Follows engine.active config.circuits ∧
      List.Forall₂ ActiveRule.Follows restarted.active config.circuits ∧
      ∀ (n : Nat) (circuit : Circuit), config.circuits[n]? = some circuit →
        (∃ bits output, engine.Sees n circuit bits output) ∧
          ∃ bits output,
            restarted.Sees (engine.network.subscriptions.length + n) circuit bits output := by
  obtain ⟨events, used, staying, follows, same_active, works⟩ :=
    session_rests published starts published'
  obtain ⟨es, stopped⟩ := used.stop
  obtain ⟨none_left, at_rest⟩ := stop_at_rest works
  obtain ⟨least, _, starts_again⟩ := starts'
  obtain ⟨_, later, done⟩ := stopped.starting none_left at_rest least config
  obtain ⟨again, follows'⟩ := done restarted _ (starts_again least (Nat.le_refl _))
  rw [← same_active] at follows
  refine ⟨follows, follows', fun n circuit here => ⟨?_, ?_⟩⟩
  · exact ⟨_, _, used.sees here (List.nil_append _).symm (fun _ => rfl) staying⟩
  · have beyond : engine.stop.network.subscriptions.length = engine.network.subscriptions.length :=
      stopped.wired.length.trans used.wired.length.symm
    have there : (config.circuits ++ config.circuits)[
        engine.network.subscriptions.length + n]? = some circuit := by
      rw [List.getElem?_append_right (by rw [used.wired.length]; omega), used.wired.length,
        Nat.add_sub_cancel_left]
      exact here
    refine ⟨_, _, again.sees there rfl (fun leaf => ?_) later⟩
    exact (stopped.sound.opened.unreached _ leaf (.inl (by rw [beyond]; omega))).1

end Session

/-- An engine at rest in which no listener publishes, with certain latest values. -/
structure Hushed (sink : Sink ς) (kind : ς → Prop) (latest : Line → Option Json)
    (engine : Engine ς) : Prop where
  same_sink : engine.sink = sink
  sound : ∃ events, Sound events engine.network []
  passive : Passive (Within 0 kind) engine.network
  latest : ∀ line, engine.network.latest line = latest line

namespace Hushed

variable {sink : Sink ς} {kind : ς → Prop} {latest : Line → Option Json}

theorem aside (hushed : Hushed sink kind latest engine) (still : engine.Aside after) :
    Hushed sink kind latest after := by
  obtain ⟨events, sound⟩ := hushed.sound
  have holds : Within 0 kind after.network.memory := by
    refine ⟨still.generation.trans hushed.passive.holds.1, ?_⟩
    rw [show after.network.memory.sink = _ from still.remembered]
    exact hushed.passive.holds.2
  constructor
  · exact still.sink.trans hushed.same_sink
  · exact ⟨events, sound.congr still.alike.subjects still.alike.subscriptions⟩
  · exact hushed.passive.alike still.alike holds
  · intro line
    rw [Network.latest, subject_congr still.alike.subjects]
    exact hushed.latest line

theorem detach (hushed : Hushed sink kind latest engine)
    (registrations : List (Registration Line)) :
    Hushed sink kind latest (engine.detach registrations) := by
  obtain ⟨events, sound⟩ := hushed.sound
  have sound' := (sound.script _).run (run_detach engine.network registrations)
  constructor
  · exact hushed.same_sink
  · exact ⟨_, sound'⟩
  · refine ⟨?_, ?_⟩
    · rw [show (engine.detach registrations).network.subscriptions = engine.network.subscriptions
        from detach_subscriptions ..]
      exact hushed.passive.quiet
    · rw [show (engine.detach registrations).network.memory = engine.network.memory
        from detach_memory ..]
      exact hushed.passive.holds
  · intro line
    have nothing : departures line (registrations.map Event.detached) = ([] : List Json) := by
      simp [departures, sent, sent?, valuesAt, Function.comp_def]
    exact (latest_of_none_departed sound sound' nothing).trans (hushed.latest line)

theorem stop (hushed : Hushed sink kind latest engine) : Hushed sink kind latest engine.stop :=
  stop_keeps (Hushed sink kind latest) (fun _ registrations hushed => hushed.detach registrations)
    (fun still hushed => hushed.aside still) hushed

theorem subscribe (hushed : Hushed sink kind latest engine) (silent : sink.Silent kind)
    (circuit : Circuit) (drive : Drive) :
    ∃ least after handle, Hushed sink kind latest after ∧ ∀ budget, least ≤ budget →
      engine.subscribe budget circuit.actions (drive.fire engine.sink) = some (after, handle) := by
  obtain ⟨events, sound⟩ := hushed.sound
  have quiet (action : Action) : (drive.fire engine.sink action).Quiet (Within 0 kind) := by
    rw [hushed.same_sink]
    exact drive.quiet_fire silent action
  obtain ⟨es, next, run, still, passive, _⟩ :=
    hushed.passive.subscribe circuit.actions quiet fun _ => .done
  obtain ⟨least, ends⟩ := subscribe_of_run run
  have sound' := (sound.script _).run run
  refine ⟨least, engine.withNetwork next, _, ⟨hushed.same_sink, ⟨_, sound'⟩, passive, ?_⟩,
    fun budget enough => (ends budget enough).1⟩
  intro line
  have nothing : departures line (.subscribed engine.network.subscriptions.length :: es) = [] := by
    have all_still : ∀ e ∈ .subscribed engine.network.subscriptions.length :: es, e.Still :=
      List.forall_mem_cons.mpr ⟨trivial, still⟩
    rw [departures, sent_still all_still]
    rfl
  exact (latest_of_none_departed sound sound' nothing).trans (hushed.latest line)

end Hushed

theorem Resting.hushed {sink : Sink ς} {kind : ς → Prop} {circuits : List Circuit}
    (resting : Resting sink kind engine circuits) :
    Hushed sink kind engine.network.latest engine := by
  obtain ⟨events, calm⟩ := resting.calm
  exact ⟨resting.same_sink, ⟨events, calm.sound⟩, calm.passive, fun _ => rfl⟩

/-- Over a sink that reports nothing back, a stopped engine can be started, and all lines stay. -/
theorem session_hushed {sink : Sink ς} {kind : ς → Prop} (silent : sink.Silent kind)
    {remembered : ς} (here : kind remembered) (logs : Option RuleLog.Site) (config : EngineConfig)
    (before after : List (String × Json)) : ∃ ready started engine restarted,
      (Engine.new sink remembered logs).Publishes before ready ∧ ready.Starts config started ∧
      started.Publishes after engine ∧ engine.stop.Starts config restarted ∧
      ∀ line, restarted.network.latest line = engine.network.latest line := by
  have fresh : Resting sink kind (Engine.new sink remembered logs) [] :=
    ⟨rfl, ⟨[], .start here⟩, .start sink _⟩
  obtain ⟨ready, published, rest, none_active, idle⟩ := fresh.publishAll before
  obtain ⟨started, starts, rest', _⟩ := start_keeps config (Resting sink kind)
    (fun rest => rest.calm.choose_spec.passive.holds.1) (fun still rest => rest.aside still)
    (fun circuit drive _ output rest => rest.subscribe silent circuit drive output)
    idle none_active rest
  obtain ⟨engine, published', rest'', same_active, same_running⟩ := rest'.publishAll after
  have works : engine.running = true ∨ engine.active = [] := by
    obtain ⟨least, _, ends⟩ := starts
    rw [same_active, same_running]
    exact running_of_start none_active idle (ends least (Nat.le_refl _))
  obtain ⟨none_left, at_rest⟩ := stop_at_rest works
  obtain ⟨restarted, starts', hushed, _⟩ := start_keeps config
    (fun now _ => Hushed sink kind engine.network.latest now)
    (fun hushed => hushed.passive.holds.1) (fun still hushed => hushed.aside still)
    (fun circuit drive _ _ hushed => hushed.subscribe silent circuit drive)
    at_rest none_left rest''.hushed.stop
  exact ⟨ready, started, engine, restarted, published, starts, published', starts', hushed.latest⟩

/-- The line of a term is legible, and has the same latest value in both engines. -/
def Steady (engine restarted : Engine ς) (term : Term) : Prop :=
  term.path? ≠ none →
    restarted.network.latest (Bus.empty.line term.path) =
        engine.network.latest (Bus.empty.line term.path) ∧
      ∀ value, engine.network.latest (Bus.empty.line term.path) = some value →
        term.reading value ≠ none

section Steady

variable {restarted : Engine ς} {term : Term}

theorem Steady.legible (steady : engine.Steady restarted term) :
    term.Legible (engine.network.latest (Bus.empty.line term.path)) ∧
      term.Legible (restarted.network.latest (Bus.empty.line term.path)) := by
  constructor
  · exact fun signal => (steady signal).2
  · intro signal
    rw [(steady signal).1]
    exact (steady signal).2

theorem Steady.same_bit (steady : engine.Steady restarted term) :
    term.bitAfter (restarted.network.latest (Bus.empty.line term.path)) [] =
      term.bitAfter (engine.network.latest (Bus.empty.line term.path)) [] := by
  by_cases constant : term.path? = none
  · rw [Term.bitAfter_of_constant constant, Term.bitAfter_of_constant constant]
  · rw [(steady constant).1]

end Steady

/--
Listeners that come after some publications have heard the same bit last as those that came before,
if the latest value on the line is a bit for the term, and nothing if it is not. And when an engine
has been stopped and started again, its rules have seen the same as before of every operand and of
the output, if the line is legible and the start has left it as it was. If the sink reports nothing
back, the engine can always be started again, and all lines are left as they were.
-/
theorem late_agrees_with_early (sink : Sink ς) (remembered : ς) (logs : Option RuleLog.Site) :
    (∀ (before values : List (String × Json)) (term : Term), ∃ engine after early late,
      (Engine.new sink remembered logs).Publishes before engine ∧ engine.Publishes values after ∧
      engine.LastHeard term values early ∧ after.LastHeard term [] late ∧
      (term.Legible (after.network.latest ⟨0, term.path⟩) → late = early) ∧
      (¬term.Legible (after.network.latest ⟨0, term.path⟩) → late = none)) ∧
    (∀ (config : EngineConfig) (before after : List (String × Json))
      (ready started engine restarted : Engine ς),
      (Engine.new sink remembered logs).Publishes before ready → ready.Starts config started →
      started.Publishes after engine → engine.stop.Starts config restarted →
      ∀ (n : Nat) (rule : ActiveRule), engine.active[n]? = some rule →
        ∃ rule' circuit bits output bits' output', restarted.active[n]? = some rule' ∧
          rule.Follows circuit ∧ rule'.Follows circuit ∧ engine.Works n circuit bits output ∧
          restarted.Works (engine.network.subscriptions.length + n) circuit bits' output' ∧
          (∀ (i : Nat) (term : Term), circuit.input.operands[i]? = some term →
            engine.Steady restarted term → ∃ bit, bits[i]? = some bit ∧ bits'[i]? = some bit) ∧
          (engine.Steady restarted circuit.output → output' = output)) ∧
    ∀ (kind : ς → Prop) (config : EngineConfig) (before after : List (String × Json)),
      sink.Silent kind → kind remembered → ∃ ready started engine restarted,
        (Engine.new sink remembered logs).Publishes before ready ∧ ready.Starts config started ∧
        started.Publishes after engine ∧ engine.stop.Starts config restarted ∧
        ∀ line, restarted.network.latest line = engine.network.latest line := by
  refine ⟨?_, ?_, ?_⟩
  · intro before values term
    obtain ⟨engine, after, published, published', heard⟩ :=
      exists_lastHeard sink remembered logs before values
    obtain ⟨latest, early, late⟩ := heard term
    refine ⟨engine, after, _, _, published, published', early, late, ?_, ?_⟩
    · intro legible
      rw [latest] at legible ⊢
      exact (Term.bitAfter_legible legible).symm
    · exact Term.bitAfter_illegible
  · intro config before after ready started engine restarted published starts published' starts'
    obtain ⟨follows, follows', sees⟩ := session_sees published starts published' starts'
    intro n rule active
    obtain ⟨circuit, at_n, rule_follows⟩ := follows_at follows active
    obtain ⟨rule', active', rule_follows'⟩ := active_at follows' at_n
    obtain ⟨⟨bits, output, old⟩, bits', output', new⟩ := sees n circuit at_n
    refine ⟨rule', circuit, bits, output, bits', output', active', rule_follows, rule_follows',
      old.works, new.works, ?_, ?_⟩
    · intro i term operand steady
      obtain ⟨legible, legible'⟩ := steady.legible
      refine ⟨_, old.operands i term operand legible, ?_⟩
      rw [new.operands i term operand legible', steady.same_bit]
    · intro steady
      obtain ⟨legible, legible'⟩ := steady.legible
      rw [old.shown legible, new.shown legible']
      exact steady.same_bit
  · intro kind config before after silent here
    exact session_hushed silent here logs config before after

namespace Reopened

def fresh : Engine Outlet := .new Outlet.sink (.limited none "" true) none

def started : Engine Outlet := ((fresh.start 100 Echo.config).map Prod.fst).getD fresh

/-- The rule has switched its output on. -/
def switched : Engine Outlet := (started.publishAll 100 [("p", .int 1)]).getD started

def restarted : Engine Outlet := ((switched.stop.start 100 Echo.config).map Prod.fst).getD switched

theorem starts_started : fresh.Starts Echo.config started :=
  have ends : fresh.start 100 Echo.config = some (started, .ok ⟨["p => o"], [], []⟩) := rfl
  starts_of_some ends

theorem publishes_switched : started.Publishes [("p", .int 1)] switched :=
  have ends : started.publishAll 100 [("p", .int 1)] = some switched := rfl
  publishes_of_some ends

theorem starts_restarted : switched.stop.Starts Echo.config restarted :=
  have ends : switched.stop.start 100 Echo.config =
      some (restarted, .ok ⟨["p => o"], [], []⟩) := rfl
  starts_of_some ends

theorem follows_circuit : ∃ rule, switched.active[0]? = some rule ∧ ∀ circuit,
    rule.Follows circuit → circuit = Echo.circuit := by
  refine ⟨_, rfl, ?_⟩
  rintro ⟨input, output⟩ follows
  obtain rfl := Option.some.inj (follows.input.symm.trans rfl)
  obtain rfl := Option.some.inj (follows.output.symm.trans rfl)
  rfl

/-- Both lines have been set, and are left alone by the second start. -/
theorem steady {path : String} (one : path = "p" ∨ path = "o") :
    switched.Steady restarted (.signal path .present) := by
  intro _
  have latest : switched.network.latest (Bus.empty.line path) = some (.int 1) ∧
      restarted.network.latest (Bus.empty.line path) = some (.int 1) := by
    rcases one with rfl | rfl
    · exact ⟨rfl, rfl⟩
    · exact ⟨rfl, rfl⟩
  refine ⟨latest.2.trans latest.1.symm, fun value here => ?_⟩
  obtain rfl := Option.some.inj (latest.1.symm.trans here)
  exact nofun

end Reopened

/-- Before it is stopped and after it is started again, the rule sees the same. -/
theorem reopened_sees_the_same :
    Reopened.fresh.Starts Echo.config Reopened.started ∧
      Reopened.started.Publishes [("p", .int 1)] Reopened.switched ∧
      Reopened.switched.stop.Starts Echo.config Reopened.restarted ∧
      ∃ bits bits' output bit, Reopened.switched.Works 0 Echo.circuit bits output ∧
        Reopened.restarted.Works 1 Echo.circuit bits' output ∧
        bits[0]? = some bit ∧ bits'[0]? = some bit := by
  refine ⟨Reopened.starts_started, Reopened.publishes_switched, Reopened.starts_restarted, ?_⟩
  have rules := (late_agrees_with_early Outlet.sink (.limited none "" true) none).2.1
    Echo.config [] [("p", .int 1)] _ _ _ _ (.nil _) Reopened.starts_started
    Reopened.publishes_switched Reopened.starts_restarted
  obtain ⟨rule, active, only⟩ := Reopened.follows_circuit
  obtain ⟨rule', circuit, bits, output, bits', output', _, follows, _, works, works', operands,
    shown⟩ := rules 0 rule active
  obtain rfl := only circuit follows
  obtain rfl := shown (Reopened.steady (.inr rfl))
  obtain ⟨bit, old, new⟩ := operands 0 (.signal "p" .present) rfl (Reopened.steady (.inl rfl))
  exact ⟨bits, bits', output', bit, works, works', old, new⟩

/-- What is no bit for the term is heard by nobody, and hides what was heard before. -/
theorem late_hears_nothing : ∃ engine after,
    (Engine.new Outlet.sink (.limited none "" false) none).Publishes [] engine ∧
      engine.Publishes [("p", .int 1), ("p", .int 2)] after ∧
      engine.LastHeard (.signal "p" .present) [("p", .int 1), ("p", .int 2)] (some true) ∧
      after.LastHeard (.signal "p" .present) [] none := by
  obtain ⟨engine, after, published, published', heard⟩ :=
    exists_lastHeard Outlet.sink (.limited none "" false) none [] [("p", .int 1), ("p", .int 2)]
  obtain ⟨latest, early, late⟩ := heard (.signal "p" .present)
  obtain rfl := published.unique (.nil _)
  refine ⟨_, after, published, published', early, ?_⟩
  rw [latest] at late
  exact late

end Engine

end Switchboard
