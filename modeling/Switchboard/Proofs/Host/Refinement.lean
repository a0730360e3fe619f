import Mathlib.Logic.Relation
import Switchboard.Proofs.Host.Queues

/-!
# The service refines the engine

Whatever the schedule of its tasks, and whenever it is told to shut down, the
service publishes the first so many updates of its input, all of them if it is
not told, and writes what an engine delivers that is given the same updates and
keeps its deliveries itself. The tasks never wait for each other in vain.
-/
namespace Switchboard.Host

open Engine

namespace Tasks

/-- The tasks can come to this, in one schedule or another. -/
def Reached (look : String → Presence) (config : ServiceConfig) (input : List UInt8)
    (tasks : Tasks) : Prop :=
  ∃ budget opened, Tasks.opened budget look config input = some (.ok opened) ∧
    Relation.ReflTransGen Step opened tasks

variable {loopback : Bool} {updates : List Update} {started : Engine Outlet}
  {report : StartReport} {tasks : Tasks}

theorem step_of_move (budget : Nat) (move : Move)
    (moves : ∃ next, tasks.move budget move = some next) : ∃ next, tasks.Step next :=
  moves.imp fun _ moves => ⟨budget, move, moves⟩

theorem can_send (unsent : tasks.unsent ≠ []) : ∃ next, tasks.Step next := by
  obtain ⟨delivery, rest, unsent⟩ := List.exists_cons_of_ne_nil unsent
  apply step_of_move 0 .send
  rw [move, send, unsent]
  exact ⟨_, rfl⟩

theorem can_read (reading : tasks.reading = true) : ∃ next, tasks.Step next := by
  apply step_of_move 0 .read
  rw [move, read, if_pos reading]
  split
  · exact ⟨_, rfl⟩
  · dsimp only
    split
    · split <;> exact ⟨_, rfl⟩
    all_goals exact ⟨_, rfl⟩

/-- The pump can publish an update, as the engine beside the service does. -/
theorem can_publish (intake : Intake loopback updates started report tasks) {last : Engine Outlet}
    (ends : started.Publishes (values updates) last) (phase : tasks.phase = .pumping)
    (sent : tasks.unsent = []) {update : Update} {rest : List Update}
    (inbox : tasks.inbox = update :: rest) : ∃ next, tasks.Step next := by
  obtain ⟨engine, leads, _, beside⟩ := intake.beside
  have order := intake.order (.inr phase)
  rw [inbox, List.append_assoc] at order
  rw [order, values, List.map_append] at ends
  obtain ⟨middle, leads', later⟩ := publishes_append_iff.mp ends
  obtain rfl := leads.unique leads'
  obtain ⟨_, after, audience, published, _⟩ := publishes_cons_iff.mp later
  have noted := (beside (.inr phase)).noteAs .trace .host
    ("update " ++ update.path ++ " = " ++ update.value.text)
  obtain ⟨least, after', _, ends'⟩ := noted.publish published
  apply step_of_move least .publish
  rw [move, publish, inbox]
  dsimp only
  rw [if_pos ⟨phase, sent⟩, Service.publish, ends' least le_rfl]
  exact ⟨_, rfl⟩

/-- As long as the service is not over, one of the tasks can make a move. -/
theorem finished_or_step (intake : Intake loopback updates started report tasks)
    {last : Engine Outlet} (ends : started.Publishes (values updates) last) :
    tasks.phase = .finished ∨ ∃ next, tasks.Step next := by
  by_cases sent : tasks.unsent = []
  · cases phase : tasks.phase with
    | starting => exact .inr ⟨_, 0, .listen, if_pos ⟨phase, sent⟩⟩
    | pumping =>
      right
      cases inbox : tasks.inbox with
      | cons update rest => exact can_publish intake ends phase sent inbox
      | nil =>
        cases reading : tasks.reading with
        | true => exact can_read reading
        | false =>
          exact ⟨_, 0, .leave, if_pos ⟨phase, sent, List.isEmpty_iff.mpr inbox, reading⟩⟩
    | leaving =>
      right
      cases reading : tasks.reading with
      | true => exact ⟨_, 0, .abort, if_pos ⟨phase, reading⟩⟩
      | false => exact ⟨_, 0, .stop, if_pos ⟨phase, reading⟩⟩
    | draining =>
      right
      cases outbox : tasks.outbox with
      | nil => exact ⟨_, 0, .finish, if_pos ⟨phase, outbox⟩⟩
      | cons delivery rest =>
        apply step_of_move 0 .write
        rw [move, write, outbox]
        exact ⟨_, rfl⟩
    | finished => exact .inl rfl
  · exact .inr (can_send sent)

theorem opened_mono {look : String → Presence} {config : ServiceConfig} {budget more : Nat}
    {outcome : Except (Engine Outlet × Failure) Service}
    (opens : Service.opened budget look config = some outcome) (enough : budget ≤ more) :
    Service.opened more look config = some outcome := by
  obtain ⟨result, starts, rfl⟩ := Option.map_eq_some_iff.mp opens
  rw [Service.opened, start_mono starts enough]
  rfl

/-- Both accounts are in order when the rules have started. -/
theorem accounts_opened {look : String → Presence} {config : ServiceConfig} {input : List UInt8}
    {budget budget' : Nat}
    (starts : (inMemory config).start budget config.engine = some (started, .ok report))
    (opens : Tasks.opened budget' look config input = some (.ok tasks)) :
    Intake config.loopback (accepted (legible (lines input))) started report tasks ∧
      tasks.Output := by
  obtain ⟨least, engine, mirrors, opens'⟩ := opened_of_start look config starts
  obtain ⟨outcome, opened, same⟩ := Option.map_eq_some_iff.mp opens
  have both := (opened_mono opened (Nat.le_max_left budget' least)).symm.trans
    (opens' _ (Nat.le_max_right budget' least))
  obtain rfl := Option.some.inj both
  obtain rfl : _ = tasks := Except.ok.inj same
  have none_sent : engine.deliveries = engine.deliveries.drop 0 := List.drop_zero.symm
  exact ⟨⟨rfl, rfl, ⟨started, .nil started, mirrors.deliveries, fun _ => mirrors⟩,
      fun _ => rfl, List.nil_prefix, fun _ => rfl,
      fun closed => absurd (.inl rfl) closed⟩,
    ⟨⟨[], rfl, rfl, none_sent⟩, Nat.zero_le _, fun closed => absurd (.inl rfl) closed, nofun⟩⟩

/-- Both accounts are in order whenever one looks, whatever the input. -/
theorem accounts_legible {look : String → Presence} {config : ServiceConfig} {input : List UInt8}
    {budget : Nat}
    (starts : (inMemory config).start budget config.engine = some (started, .ok report))
    (reached : Reached look config input tasks) :
    Intake config.loopback (accepted (legible (lines input))) started report tasks ∧
      tasks.Output := by
  obtain ⟨budget', opened, opens, leads⟩ := reached
  induction leads with
  | refl => exact accounts_opened starts opens
  | tail _ step ih =>
    obtain ⟨_, _, moves⟩ := step
    have turn := turn_of_move moves
    exact ⟨ih.1.turn turn, ih.2.turn turn⟩

theorem accounts_reached {look : String → Presence} {config : ServiceConfig} {input : List UInt8}
    (text : AllText (lines input)) {budget : Nat}
    (starts : (inMemory config).start budget config.engine = some (started, .ok report))
    (reached : Reached look config input tasks) :
    Intake config.loopback (accepted (lines input)) started report tasks ∧ tasks.Output := by
  have accounts := accounts_legible starts reached
  rwa [text.legible_eq] at accounts

/-- What the service has done when it is over, whatever the input. -/
theorem outcome_legible {look : String → Presence} {config : ServiceConfig} {input : List UInt8}
    {budget : Nat}
    (starts : (inMemory config).start budget config.engine = some (started, .ok report))
    (reached : Reached look config input tasks) (finished : tasks.phase = .finished) :
    tasks.published <+: accepted (legible (lines input)) ∧
      (tasks.told = false → tasks.published = accepted (legible (lines input))) ∧
      ∃ last, started.Publishes (values tasks.published) last ∧
        tasks.written = Host.written last.deliveries ∧
        tasks.summary = ⟨report, tasks.published.length, last.deliveries.length⟩ := by
  obtain ⟨intake, output⟩ := accounts_legible starts reached
  obtain ⟨written, outputs⟩ := output.complete finished
  obtain ⟨last, publishes, deliveries, _⟩ := intake.beside
  have closed := closed_of_phase finished (by decide)
  refine ⟨intake.first, intake.whole closed, last, publishes, ?_, ?_⟩
  · rw [written, deliveries]
  · rw [summary, intake.report, intake.count, outputs, deliveries]

theorem outcome_reached {look : String → Presence} {config : ServiceConfig} {input : List UInt8}
    (text : AllText (lines input)) {budget : Nat}
    (starts : (inMemory config).start budget config.engine = some (started, .ok report))
    (reached : Reached look config input tasks) (finished : tasks.phase = .finished) :
    tasks.published <+: accepted (lines input) ∧
      (tasks.told = false → tasks.published = accepted (lines input)) ∧
      ∃ last, started.Publishes (values tasks.published) last ∧
        tasks.written = Host.written last.deliveries ∧
        tasks.summary = ⟨report, tasks.published.length, last.deliveries.length⟩ := by
  have outcome := outcome_legible starts reached finished
  rwa [text.legible_eq] at outcome

/-- If the rules can be started, the tasks can come to something. -/
theorem exists_reached (look : String → Presence) (config : ServiceConfig) (input : List UInt8)
    {budget : Nat}
    (starts : (inMemory config).start budget config.engine = some (started, .ok report)) :
    ∃ tasks, Reached look config input tasks := by
  obtain ⟨least, engine, _, opens⟩ := opened_of_start look config starts
  have opened : ∃ tasks, Tasks.opened least look config input = some (.ok tasks) := by
    rw [Tasks.opened, opens least le_rfl]
    exact ⟨_, rfl⟩
  obtain ⟨tasks, opened⟩ := opened
  exact ⟨tasks, least, tasks, opened, .refl⟩

/-- A service that takes one line after the other, and as many updates, does the same. -/
theorem serve_of_reached {look : String → Presence} {config : ServiceConfig} {input : List UInt8}
    {budget : Nat}
    (starts : (inMemory config).start budget config.engine = some (started, .ok report))
    (reached : Reached look config input tasks) (finished : tasks.phase = .finished) :
    ∃ least, ∀ more, least ≤ more → ∃ journal,
      serve more look config input (some tasks.published.length) none =
        some ⟨journal, tasks.written, .ok tasks.summary⟩ := by
  obtain ⟨first, _, last, publishes, written, summary⟩ := outcome_legible starts reached finished
  have taken : upTo (some tasks.published.length) (accepted (legible (lines input))) =
      tasks.published :=
    (List.prefix_iff_eq_take.mp first).symm
  rw [← taken] at publishes
  have serves := serve_legible look config input starts (some tasks.published.length) publishes
  rw [taken] at serves
  rw [written, summary]
  exact serves

end Tasks

/--
Whatever the schedule, the service writes what the engine delivers that is given the updates which
have been published; these are the first so many updates of the input, or all of them. Unless the
engine itself runs for ever, every schedule comes to an end, and to no other one than this.
-/
theorem service_refines_engine (look : String → Presence) (config : ServiceConfig)
    {input : List UInt8} (text : AllText (lines input)) {budget : Nat} {started : Engine Outlet}
    {report : StartReport}
    (starts : (inMemory config).start budget config.engine = some (started, .ok report)) :
    (∀ limit last, started.Publishes (values (upTo limit (accepted (lines input)))) last →
      ∃ least, ∀ more, least ≤ more → ∃ journal,
        serve more look config input limit none = some ⟨journal, written last.deliveries,
          .ok ⟨report, (upTo limit (accepted (lines input))).length, last.deliveries.length⟩⟩) ∧
    (∃ tasks, Tasks.Reached look config input tasks) ∧
    (∀ tasks, Tasks.Reached look config input tasks → tasks.phase = .finished →
      tasks.published <+: accepted (lines input) ∧
      (tasks.told = false → tasks.published = accepted (lines input)) ∧
      ∃ last, started.Publishes (values tasks.published) last ∧
        tasks.written = written last.deliveries ∧
        tasks.summary = ⟨report, tasks.published.length, last.deliveries.length⟩) ∧
    (∀ last, started.Publishes (values (accepted (lines input))) last →
      ∀ tasks, Tasks.Reached look config input tasks →
        tasks.phase = .finished ∨ ∃ next, tasks.Step next) ∧
    WellFounded fun next tasks => Tasks.Step tasks next := by
  refine ⟨?_, Tasks.exists_reached look config input starts, ?_, ?_, Tasks.wellFounded_step⟩
  · exact fun limit last publishes => serve_of_publishes look config text starts limit publishes
  · exact fun tasks reached finished => Tasks.outcome_reached text starts reached finished
  · intro last ends tasks reached
    exact Tasks.finished_or_step (Tasks.accounts_reached text starts reached).1 ends

namespace Valve

/-- One rule, and a device that is driven by requests. -/
def config : ServiceConfig :=
  ⟨.defaults, true, ⟨["y"], [⟨none, some "p", some "y", none, false, true⟩]⟩⟩

/-- An update, a line that is none, and another update. -/
def input : List UInt8 :=
  "\x7b\x22path\x22:\x22p\x22,\x22value\x22:1\x7d\nno update\n[\x22p\x22,0]\n".toUTF8.toList

def nothingThere : String → Presence := fun _ => .nothing

def started : Engine Outlet :=
  (((inMemory config).start 200 config.engine).map Prod.fst).getD (inMemory config)

def last : Engine Outlet :=
  (started.publishAll 200 (values (accepted (lines input)))).getD started

def report : StartReport := ⟨["p => y"], [], []⟩

/-- What is written when the rule has been switched on and off. -/
def output : String :=
  "\x7b\x22mode\x22:\x22put\x22,\x22path\x22:\x22y\x22,\x22value\x22:1\x7d\n" ++
    "\x7b\x22mode\x22:\x22put\x22,\x22path\x22:\x22y\x22,\x22value\x22:0\x7d\n"

theorem starts : (inMemory config).start 200 config.engine = some (started, .ok report) := rfl

theorem input_text : AllText (lines input) := by
  have all : (lines input).all (fun line => (textOf? line).isSome) = true := by decide +kernel
  exact List.all_eq_true.mp all

theorem publishes_last : started.Publishes (values (accepted (lines input))) last := by
  have ends : (started.publishAll 200 (values (accepted (lines input)))).isSome = true := by
    decide +kernel
  obtain ⟨engine, ends⟩ := Option.isSome_iff_exists.mp ends
  have same : engine = last := by rw [last, ends, Option.getD_some]
  exact publishes_of_some (same ▸ ends)

theorem written_last : (accepted (lines input)).length = 2 ∧ last.deliveries.length = 2 ∧
    written last.deliveries = output := by
  decide +kernel

end Valve

/-- Two updates make two requests to the device, unless somebody shuts the service down. -/
theorem valve_refines_engine :
    (∃ least, ∀ more, least ≤ more → ∃ journal,
      serve more Valve.nothingThere Valve.config Valve.input none none =
        some ⟨journal, Valve.output, .ok ⟨Valve.report, 2, 2⟩⟩) ∧
    ∀ tasks, Tasks.Reached Valve.nothingThere Valve.config Valve.input tasks →
      tasks.phase = .finished → tasks.told = false →
        tasks.written = Valve.output ∧ tasks.summary = ⟨Valve.report, 2, 2⟩ := by
  obtain ⟨serves, _, finishes, _⟩ :=
    service_refines_engine Valve.nothingThere Valve.config Valve.input_text Valve.starts
  obtain ⟨updates, outputs, written⟩ := Valve.written_last
  refine ⟨?_, fun tasks reached finished untold => ?_⟩
  · have ends := serves none Valve.last Valve.publishes_last
    rw [written, outputs, upTo, updates] at ends
    exact ends
  · obtain ⟨_, whole, last, publishes, same_written, same_summary⟩ :=
      finishes tasks reached finished
    rw [whole untold] at publishes same_summary
    obtain rfl := publishes.unique Valve.publishes_last
    rw [same_written, same_summary, written, outputs, updates]
    exact ⟨rfl, rfl⟩

/-- One schedule: the writer lags behind. -/
example :
    (match Tasks.opened 200 Valve.nothingThere Valve.config Valve.input with
      | some (.ok tasks) =>
        (tasks.moveAll 200 [.listen, .read, .read, .publish, .send, .read, .publish, .write, .send,
          .read, .leave, .stop, .write, .finish]).map fun tasks => (tasks.phase, tasks.written)
      | _ => none) = some (.finished, Valve.output) := by
  decide +kernel

end Switchboard.Host
