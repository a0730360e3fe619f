import Switchboard.Host.Service

/-!
# The service as three tasks

A reader takes lines of input and passes on the updates in them, a pump
publishes the updates, and a writer reports deliveries. One queue leads from
the reader to the pump and another one from the sink to the writer; what is
put into a queue comes out in the same order.

The three go on side by side. Whose turn it is, and when the service is told
to shut down, is open at every moment. A move that cannot be made has no
result.
-/
namespace Switchboard.Host

/-- How far the service is. -/
inductive Phase where
  /-- Rules are started. -/
  | starting
  /-- Updates are published. -/
  | pumping
  /-- No more updates are published, but the reader may still be at work. -/
  | leaving
  /-- The sink is closed, but deliveries may still be on their way to the writer. -/
  | draining
  | finished
  deriving Repr, DecidableEq

structure Tasks : Type 1 where
  service : Service
  phase : Phase
  /-- The lines that the reader has not taken. -/
  unread : List (List UInt8)
  /-- Whether the reader is at work. -/
  reading : Bool
  /-- The updates that are on their way to the pump. -/
  inbox : List Update
  /-- The updates that have been published, in order. -/
  published : List Update
  /-- The number of deliveries that have been handed to the writer. -/
  sent : Nat
  /-- The deliveries that are on their way to the writer. -/
  outbox : List Delivery
  /-- What has been written, and the number of deliveries reported there. -/
  written : String
  outputs : Nat
  /-- Whether the service has been told to shut down. -/
  told : Bool

/-- Something that one of the tasks can do. -/
inductive Move where
  | listen
  | read
  | publish
  | send
  | write
  | tell
  | leave
  | quit
  | abort
  | stop
  | finish
  deriving Repr, DecidableEq

namespace Tasks

/-- The deliveries that have still to be handed to the writer. -/
def unsent (tasks : Tasks) : List Delivery := tasks.service.deliveries.drop tasks.sent

def withEngine (engine : Engine Outlet) (tasks : Tasks) : Tasks :=
  { tasks with service := { tasks.service with engine := engine } }

def note (level : Level) (origin : Origin) (text : String) (tasks : Tasks) : Tasks :=
  tasks.withEngine (noteAs level origin text tasks.service.engine)

/-- Notes how the input ended. -/
def noteEnd (interrupted : Bool) (tasks : Tasks) : Tasks :=
  tasks.withEngine (tasks.service.noteEnd interrupted)

/-- All rules have started, and a reader comes into being. -/
def listen (tasks : Tasks) : Option Tasks :=
  if tasks.phase = .starting ∧ tasks.unsent = [] then
    some { tasks with phase := .pumping, reading := true }
  else none

/-- The reader comes to an end of its own. -/
def endReading (tasks : Tasks) : Tasks := { tasks.noteEnd false with reading := false }

/-- The reader takes a line. It stops at the end of the input, and when nobody takes an update. -/
def read (tasks : Tasks) : Option Tasks :=
  if tasks.reading then
    match tasks.unread with
    | [] => some tasks.endReading
    | line :: rest =>
      let counted := { tasks with
        unread := rest, service := { tasks.service with lines := tasks.service.lines + 1 } }
      match InputLine.ofBytes line with
      | .update update =>
        if tasks.phase = .pumping then some { counted with inbox := tasks.inbox ++ [update] }
        else some (counted.note .debug .host "Pump closed, reader stopping").endReading
      | .blank => some counted
      | .faulty text fault =>
        some (counted.note .warn .host (skippedText counted.service.lines text fault))
      | .noText =>
        some { tasks with
          unread := rest, reading := false, service := { tasks.service with failed := true } }
  else none

/-- The pump publishes an update, when all that came of the one before is on its way. -/
def publish (budget : Nat) (tasks : Tasks) : Option Tasks :=
  match tasks.inbox with
  | [] => none
  | update :: rest =>
    if tasks.phase = .pumping ∧ tasks.unsent = [] then
      (tasks.service.publish budget update).map fun service =>
        { tasks with
          service := service, inbox := rest, published := tasks.published ++ [update] }
    else none

/-- The sink hands a delivery to the writer. -/
def send (tasks : Tasks) : Option Tasks :=
  match tasks.unsent with
  | [] => none
  | delivery :: _ =>
    some { tasks with sent := tasks.sent + 1, outbox := tasks.outbox ++ [delivery] }

/-- The writer reports a delivery. -/
def write (tasks : Tasks) : Option Tasks :=
  match tasks.outbox with
  | [] => none
  | delivery :: rest =>
    some { tasks with
      outbox := rest
      written := tasks.written ++ reported delivery
      outputs := tasks.outputs + 1 }

/-- The service is told to shut down. It matters only as long as the pump can hear it. -/
def tell (tasks : Tasks) : Option Tasks :=
  if tasks.told = false ∧ (tasks.phase = .starting ∨ tasks.phase = .pumping) then
    some { tasks with told := true }
  else none

/-- The pump ends, as there is no reader any more and nothing is on its way. -/
def leave (tasks : Tasks) : Option Tasks :=
  if tasks.phase = .pumping ∧ tasks.unsent = [] ∧ tasks.inbox.isEmpty ∧ tasks.reading = false then
    some { tasks with phase := .leaving }
  else none

/-- The pump ends, as the service has been told to. -/
def quit (tasks : Tasks) : Option Tasks :=
  if tasks.phase = .pumping ∧ tasks.unsent = [] ∧ tasks.told = true then
    some { tasks.noteEnd true with phase := .leaving, inbox := [] }
  else none

/-- The reader is made to end. -/
def abort (tasks : Tasks) : Option Tasks :=
  if tasks.phase = .leaving ∧ tasks.reading = true then some { tasks with reading := false }
  else none

/-- Rules are stopped, and the sink is closed. -/
def stop (tasks : Tasks) : Option Tasks :=
  if tasks.phase = .leaving ∧ tasks.reading = false then
    let heard := if tasks.service.failed then tasks.noteEnd false else tasks
    some { heard.withEngine heard.service.engine.stop with phase := .draining }
  else none

/-- The writer has reported everything. -/
def finish (tasks : Tasks) : Option Tasks :=
  if tasks.phase = .draining ∧ tasks.outbox = [] then
    let noted := tasks.note .info .service (finishedText tasks.service.updates tasks.outputs)
    some { noted with phase := .finished }
  else none

/-- What a move leads to. -/
def move (budget : Nat) : Move → Tasks → Option Tasks
  | .listen => listen
  | .read => read
  | .publish => publish budget
  | .send => send
  | .write => write
  | .tell => tell
  | .leave => leave
  | .quit => quit
  | .abort => abort
  | .stop => stop
  | .finish => finish

def moveAll (budget : Nat) : List Move → Tasks → Option Tasks
  | [], tasks => some tasks
  | move :: rest, tasks => (tasks.move budget move).bind (moveAll budget rest)

/-- The tasks when the rules of the service are being started. -/
def opened (budget : Nat) (look : String → Presence) (config : ServiceConfig)
    (input : List UInt8) : Option (Except (Engine Outlet × Failure) Tasks) :=
  (Service.opened budget look config).map fun outcome =>
    outcome.map fun service => ⟨service, .starting, lines input, false, [], [], 0, [], "", 0, false⟩

/-- What the run did. -/
def summary (tasks : Tasks) : Summary :=
  ⟨tasks.service.report, tasks.service.updates, tasks.outputs⟩

end Tasks

end Switchboard.Host
