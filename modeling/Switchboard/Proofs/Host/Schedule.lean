import Mathlib.Data.Prod.Lex
import Mathlib.Order.WellFounded
import Switchboard.Host.Tasks
import Switchboard.Proofs.Host.Serving

/-!
# What the tasks of the service can do

The moves of the three tasks, sorted by what they do to the queues. Everything
that is said of all schedules is proved from this list. No schedule goes on for
ever: a line is read once, an update is published once, and while neither
happens deliveries move on towards the output.
-/
namespace Switchboard.Host

/-- The same updates have been published, and the same deliveries have been made. -/
structure Service.Same (service after : Service) : Prop where
  report : after.report = service.report
  updates : after.updates = service.updates
  deliveries : after.deliveries = service.deliveries

/-- Besides, the engine is as it was, but for notes. -/
structure Service.Notes (service after : Service) : Prop extends service.Same after where
  mirrors : ∀ {loopback engine}, Mirrors loopback engine service.engine →
    Mirrors loopback engine after.engine

namespace Service.Notes

theorem counted (service : Service) (lines : Nat) : service.Notes { service with lines := lines } :=
  ⟨⟨rfl, rfl, rfl⟩, id⟩

theorem note (service : Service) (level : Level) (origin : Origin) (text : String) :
    service.Notes { service with engine := noteAs level origin text service.engine } :=
  ⟨⟨rfl, rfl, service.engine.deliveries_note _⟩, fun mirrors => mirrors.noteAs _ _ _⟩

theorem trans {service middle after : Service} (first : service.Notes middle)
    (second : middle.Notes after) : service.Notes after where
  report := second.report.trans first.report
  updates := second.updates.trans first.updates
  deliveries := second.deliveries.trans first.deliveries
  mirrors mirrors := second.mirrors (first.mirrors mirrors)

theorem noteEnd (service : Service) (interrupted : Bool) :
    service.Notes { service with engine := service.noteEnd interrupted } := by
  unfold Service.noteEnd
  split
  · exact note service _ _ _
  · split <;> exact note service _ _ _

end Service.Notes

/-- How far a phase is from the end; a reader that comes into being in between counts too. -/
def Phase.ahead : Phase → Nat
  | .starting => 5
  | .pumping => 3
  | .leaving => 2
  | .draining => 1
  | .finished => 0

namespace Tasks

/-- Updates are still being published, or will be. -/
def Open (tasks : Tasks) : Prop := tasks.phase = .starting ∨ tasks.phase = .pumping

/-- A move of one of the tasks, by what it does. -/
inductive Turn (tasks : Tasks) : Tasks → Prop where
  | listening (phase : tasks.phase = .starting) (sent : tasks.unsent = []) :
      Turn tasks { tasks with phase := .pumping, reading := true }
  | ended {service : Service} (reading : tasks.reading = true) (unread : tasks.unread = [])
      (notes : tasks.service.Notes service) :
      Turn tasks { tasks with service := service, reading := false }
  | passedOn {service : Service} {line : List UInt8} {rest : List (List UInt8)} {update : Update}
      (reading : tasks.reading = true) (phase : tasks.phase = .pumping)
      (unread : tasks.unread = line :: rest) (here : InputLine.ofBytes line = .update update)
      (notes : tasks.service.Notes service) :
      Turn tasks
        { tasks with service := service, unread := rest, inbox := tasks.inbox ++ [update] }
  | refused {service : Service} {line : List UInt8} {rest : List (List UInt8)}
      (reading : tasks.reading = true) (phase : tasks.phase ≠ .pumping)
      (unread : tasks.unread = line :: rest) (notes : tasks.service.Notes service) :
      Turn tasks { tasks with service := service, unread := rest, reading := false }
  | skipped {service : Service} {line : List UInt8} {rest : List (List UInt8)}
      (reading : tasks.reading = true) (unread : tasks.unread = line :: rest)
      (here : Skipped line) (notes : tasks.service.Notes service) :
      Turn tasks { tasks with service := service, unread := rest }
  | failed {service : Service} {line : List UInt8} {rest : List (List UInt8)}
      (reading : tasks.reading = true) (unread : tasks.unread = line :: rest)
      (here : InputLine.ofBytes line = .noText) (notes : tasks.service.Notes service) :
      Turn tasks { tasks with service := service, unread := rest, reading := false }
  | published {service : Service} {budget : Nat} {update : Update} {rest : List Update}
      (phase : tasks.phase = .pumping) (sent : tasks.unsent = [])
      (inbox : tasks.inbox = update :: rest)
      (publishes : tasks.service.publish budget update = some service) :
      Turn tasks
        { tasks with
          service := service, inbox := rest, published := tasks.published ++ [update] }
  | handedOn {delivery : Delivery} {rest : List Delivery}
      (unsent : tasks.unsent = delivery :: rest) :
      Turn tasks { tasks with sent := tasks.sent + 1, outbox := tasks.outbox ++ [delivery] }
  | wrote {delivery : Delivery} {rest : List Delivery} (outbox : tasks.outbox = delivery :: rest) :
      Turn tasks
        { tasks with
          outbox := rest
          written := tasks.written ++ reported delivery
          outputs := tasks.outputs + 1 }
  | told (untold : tasks.told = false) (phase : tasks.Open) : Turn tasks { tasks with told := true }
  | left (phase : tasks.phase = .pumping) (sent : tasks.unsent = []) (inbox : tasks.inbox = [])
      (reading : tasks.reading = false) : Turn tasks { tasks with phase := .leaving }
  | quit {service : Service} (phase : tasks.phase = .pumping) (sent : tasks.unsent = [])
      (told : tasks.told = true) (notes : tasks.service.Notes service) :
      Turn tasks { tasks with service := service, phase := .leaving, inbox := [] }
  | aborted (phase : tasks.phase = .leaving) (reading : tasks.reading = true) :
      Turn tasks { tasks with reading := false }
  | stopped {service : Service} (phase : tasks.phase = .leaving) (reading : tasks.reading = false)
      (same : tasks.service.Same service) :
      Turn tasks { tasks with service := service, phase := .draining }
  | finished {service : Service} (phase : tasks.phase = .draining) (outbox : tasks.outbox = [])
      (same : tasks.service.Same service) :
      Turn tasks { tasks with service := service, phase := .finished }

theorem turn_of_read {tasks next : Tasks} (moves : tasks.read = some next) : tasks.Turn next := by
  unfold read at moves
  split at moves
  case isFalse => exact nomatch moves
  case isTrue reading =>
    split at moves
    case h_1 unread =>
      obtain rfl := Option.some.inj moves
      exact .ended reading unread (.noteEnd _ _)
    case h_2 line rest unread =>
      dsimp only at moves
      split at moves
      case h_1 update here =>
        split at moves
        case isTrue phase =>
          obtain rfl := Option.some.inj moves
          exact .passedOn reading phase unread here (.counted _ _)
        case isFalse phase =>
          obtain rfl := Option.some.inj moves
          exact .refused reading phase unread
            (((Service.Notes.counted _ _).trans (.note _ _ _ _)).trans (.noteEnd _ _))
      case h_2 here =>
        obtain rfl := Option.some.inj moves
        exact .skipped reading unread (.inl here) (.counted _ _)
      case h_3 text fault here =>
        obtain rfl := Option.some.inj moves
        exact .skipped reading unread (.inr ⟨text, fault, here⟩)
          ((Service.Notes.counted _ _).trans (.note _ _ _ _))
      case h_4 here =>
        obtain rfl := Option.some.inj moves
        exact .failed reading unread here ⟨⟨rfl, rfl, rfl⟩, id⟩

/-- Every move is one of these. -/
theorem turn_of_move {tasks next : Tasks} {budget : Nat} {move : Move}
    (moves : tasks.move budget move = some next) : tasks.Turn next := by
  cases move with
  | listen =>
    obtain ⟨⟨phase, sent⟩, same⟩ := Option.ite_none_right_eq_some.mp moves
    obtain rfl := Option.some.inj same
    exact .listening phase sent
  | read => exact turn_of_read moves
  | publish =>
    replace moves : tasks.publish budget = some next := moves
    unfold publish at moves
    split at moves
    case h_1 => exact nomatch moves
    case h_2 update rest inbox =>
      obtain ⟨⟨phase, sent⟩, same⟩ := Option.ite_none_right_eq_some.mp moves
      obtain ⟨service, publishes, rfl⟩ := Option.map_eq_some_iff.mp same
      exact .published phase sent inbox publishes
  | send =>
    replace moves : tasks.send = some next := moves
    unfold send at moves
    split at moves
    case h_1 => exact nomatch moves
    case h_2 delivery rest unsent =>
      obtain rfl := Option.some.inj moves
      exact .handedOn unsent
  | write =>
    replace moves : tasks.write = some next := moves
    unfold write at moves
    split at moves
    case h_1 => exact nomatch moves
    case h_2 delivery rest outbox =>
      obtain rfl := Option.some.inj moves
      exact .wrote outbox
  | tell =>
    obtain ⟨⟨untold, phase⟩, same⟩ := Option.ite_none_right_eq_some.mp moves
    obtain rfl := Option.some.inj same
    exact .told untold phase
  | leave =>
    obtain ⟨⟨phase, sent, inbox, reading⟩, same⟩ := Option.ite_none_right_eq_some.mp moves
    obtain rfl := Option.some.inj same
    exact .left phase sent (List.isEmpty_iff.mp inbox) reading
  | quit =>
    obtain ⟨⟨phase, sent, told⟩, same⟩ := Option.ite_none_right_eq_some.mp moves
    obtain rfl := Option.some.inj same
    exact .quit phase sent told (.noteEnd _ _)
  | abort =>
    obtain ⟨⟨phase, reading⟩, same⟩ := Option.ite_none_right_eq_some.mp moves
    obtain rfl := Option.some.inj same
    exact .aborted phase reading
  | stop =>
    obtain ⟨⟨phase, reading⟩, same⟩ := Option.ite_none_right_eq_some.mp moves
    obtain rfl := Option.some.inj same
    dsimp only
    split
    case isTrue =>
      have noted := (Service.Notes.noteEnd tasks.service false).toSame
      exact .stopped phase reading
        ⟨noted.report, noted.updates, (Engine.deliveries_stop _).trans noted.deliveries⟩
    case isFalse => exact .stopped phase reading ⟨rfl, rfl, Engine.deliveries_stop _⟩
  | finish =>
    obtain ⟨⟨phase, outbox⟩, same⟩ := Option.ite_none_right_eq_some.mp moves
    obtain rfl := Option.some.inj same
    exact .finished phase outbox (Service.Notes.note _ _ _ _).toSame

theorem drop_of_unsent {tasks : Tasks} {delivery : Delivery} {rest : List Delivery}
    (unsent : tasks.unsent = delivery :: rest) :
    tasks.service.deliveries.drop (tasks.sent + 1) = rest := by
  rw [← List.tail_drop]
  exact congrArg List.tail unsent

/-- What is left to do with the input, and what with deliveries. -/
def ahead (tasks : Tasks) : Nat ×ₗ Nat :=
  toLex (2 * tasks.unread.length + tasks.inbox.length + tasks.reading.toNat + (!tasks.told).toNat +
      tasks.phase.ahead,
    2 * tasks.unsent.length + tasks.outbox.length)

/-- Every move brings the end nearer. -/
theorem Turn.ahead_lt {tasks next : Tasks} (turn : tasks.Turn next) : next.ahead < tasks.ahead := by
  unfold ahead
  rw [Prod.Lex.toLex_lt_toLex]
  cases turn with
  | listening phase sent =>
    left
    have := Bool.toNat_lt tasks.reading
    simp only [phase, Phase.ahead, Bool.toNat_true]
    omega
  | ended reading unread notes =>
    left
    simp only [reading, Bool.toNat_true, Bool.toNat_false]
    omega
  | passedOn reading phase unread here notes =>
    left
    simp only [unread, List.length_cons, List.length_append, List.length_nil]
    omega
  | refused reading phase unread notes =>
    left
    simp only [unread, reading, List.length_cons, Bool.toNat_true, Bool.toNat_false]
    omega
  | skipped reading unread here notes =>
    left
    simp only [unread, List.length_cons]
    omega
  | failed reading unread here notes =>
    left
    simp only [unread, reading, List.length_cons, Bool.toNat_true, Bool.toNat_false]
    omega
  | published phase sent inbox publishes =>
    left
    simp only [inbox, List.length_cons]
    omega
  | handedOn unsent =>
    right
    refine ⟨rfl, ?_⟩
    show 2 * (tasks.service.deliveries.drop (tasks.sent + 1)).length + _ < _
    rw [drop_of_unsent unsent, unsent, List.length_append, List.length_cons, List.length_cons,
      List.length_nil]
    omega
  | @wrote _ rest outbox =>
    right
    refine ⟨rfl, ?_⟩
    show 2 * tasks.unsent.length + rest.length < _
    rw [outbox, List.length_cons]
    omega
  | told untold phase =>
    left
    simp only [untold, Bool.not_true, Bool.not_false, Bool.toNat_true, Bool.toNat_false]
    omega
  | left phase sent inbox reading =>
    left
    simp only [phase, Phase.ahead]
    omega
  | quit phase sent told notes =>
    left
    simp only [phase, Phase.ahead, List.length_nil]
    omega
  | aborted phase reading =>
    left
    simp only [reading, Bool.toNat_true, Bool.toNat_false]
    omega
  | stopped phase reading same =>
    left
    simp only [phase, Phase.ahead]
    omega
  | finished phase outbox same =>
    left
    simp only [phase, Phase.ahead]
    omega

/-- One of the tasks makes a move, with as many steps as it takes. -/
def Step (tasks next : Tasks) : Prop := ∃ budget move, tasks.move budget move = some next

/-- The tasks cannot go on for ever. -/
theorem wellFounded_step : WellFounded fun next tasks => Step tasks next :=
  Subrelation.wf (fun {_ _} ⟨_, _, moves⟩ => (turn_of_move moves).ahead_lt)
    (InvImage.wf ahead wellFounded_lt)

end Tasks

end Switchboard.Host
