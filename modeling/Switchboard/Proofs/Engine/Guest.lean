import Switchboard.Proofs.Engine.Circuit
import Switchboard.Proofs.Engine.Exchange
import Switchboard.Proofs.Engine.Offering
import Switchboard.Proofs.Network.Foreseen

/-!
# Rules and guests

Tallies, what is shown to an operator and what the sink remembers belong to the
rules, and so do deliveries and rule logs. Whoever else listens on the bus is a
guest. A guest may publish, make notes and make itself known to the bus, and it
does so whatever is shown; what belongs to the rules it leaves alone.

A rule that fires has done all that it does to these things before it
publishes. What that is can be told from the rule and the action, apart from
what the sink makes of it.
-/
namespace Switchboard

variable {ς : Type}

/-- What belongs to the rules at a plant. -/
structure Holdings (ς : Type) where
  tallies : List Tally
  board : Board
  sink : ς

def Plant.holdings (plant : Plant ς) : Holdings ς := ⟨plant.tallies, plant.board, plant.sink⟩

namespace Entry

/-- Deliveries, and what concerns the logs of rules. -/
def kept? : Entry → Option Entry
  | .note _ | .heard .. => none
  | .delivered delivery => some (.delivered delivery)
  | .ruleLog directory => some (.ruleLog directory)
  | .ruleLine directory line => some (.ruleLine directory line)

/-- A line in the log of a rule, with the directory of the log. -/
def ruleLine? : Entry → Option (String × String)
  | .ruleLine directory line => some (directory, line)
  | _ => none

end Entry

theorem Script.Plain.followedBy {κ ν ρ σ τ δ : Type} {view : σ → τ} {read : ρ → Option δ}
    {script later : Script κ ν ρ σ} (plain : script.Plain view read)
    (plain' : later.Plain view read) : (script.followedBy later).Plain view read := by
  induction plain with
  | done => exact plain'
  | record unread _ ih => exact .record unread ih
  | change same _ ih => exact .change same ih
  | consult _ ih => exact .consult ih
  | publish _ ih => exact .publish ih

theorem Script.Similar.followedBy {κ ν ρ σ τ δ : Type} {alike : σ → τ → Prop}
    {read : ρ → Option δ} {script later : Script κ ν ρ σ} {script' later' : Script κ ν ρ τ}
    (same : script.Similar alike read script') (same' : later.Similar alike read later') :
    (script.followedBy later).Similar alike read (script'.followedBy later') := by
  induction same with
  | done => exact same'
  | left unread _ ih => exact .left unread ih
  | right unread _ ih => exact .right unread ih
  | record _ ih => exact .record ih
  | change stays _ ih => exact .change stays ih
  | consult _ ih => exact .consult ih
  | publish _ ih => exact .publish ih
  | subscribe heard _ _ ih => exact .subscribe heard ih

namespace PlantScript

/-- A script that leaves alone what belongs to the rules, and goes the same way whatever is shown. -/
structure Guest (script : PlantScript ς) : Prop where
  plain : script.Plain Plant.holdings Entry.kept?
  blind : Similar Eq script script

theorem plain_publish (path : String) (value : Json) {next : Nat → PlantScript ς}
    (plain : ∀ n, (next n).Plain Plant.holdings Entry.kept?) :
    (publish path value next).Plain Plant.holdings Entry.kept? :=
  .record rfl (.change (fun _ => rfl) (.consult fun _ => .publish plain))

theorem plain_echo (delivery : Delivery) (answer : Answer) {next : PlantScript ς}
    (plain : next.Plain Plant.holdings Entry.kept?) :
    (echo delivery answer next).Plain Plant.holdings Entry.kept? := by
  unfold echo
  split
  · exact plain_publish _ _ fun _ => plain
  · exact plain

/-- What follows a delivery that has been taken. -/
theorem plain_acknowledge (sink : Sink ς) (delivery : Delivery) (answer : Answer)
    {next : PlantScript ς} (plain : next.Plain Plant.holdings Entry.kept?) :
    (acknowledge sink delivery answer next).Plain Plant.holdings Entry.kept? := by
  unfold acknowledge
  split
  · exact plain.followedBy (plain_echo delivery answer .done)
  · exact plain_echo delivery answer plain

/-- Whatever the sink answers, it has been offered the delivery before anything is reported back. -/
theorem brisk_offer (sink : Sink ς) (delivery : Delivery) {next : Answer → PlantScript ς}
    (plain : ∀ answer, (next answer).Plain Plant.holdings Entry.kept?) :
    (offer sink delivery next).Brisk Plant.holdings Entry.kept? := by
  refine .consult fun plant => .change ?_
  generalize (sink.offer plant.sink delivery).2 = answer
  cases answer with
  | refused => exact (plain _).brisk
  | taken => exact .record (plain_acknowledge sink _ _ (plain _)).brisk

namespace Guest

theorem done : Guest (.done : PlantScript ς) := ⟨.done, .done⟩

theorem heard {watcher : String} {value : Json} {next : PlantScript ς} (guest : next.Guest) :
    Guest (.record (.heard watcher value) next) :=
  ⟨.record rfl guest.plain, .record guest.blind⟩

theorem publish {path : String} {value : Json} {next : Nat → PlantScript ς}
    (guest : ∀ n, (next n).Guest) : (PlantScript.publish path value next).Guest :=
  ⟨plain_publish path value fun n => (guest n).plain,
    similar_publish path value fun n => (guest n).blind⟩

end Guest

end PlantScript

/-- To publish from outside is what a guest does. -/
theorem Engine.guest_publication (path : String) (value : Json) :
    (Engine.publication path value : PlantScript ς).Guest :=
  .publish fun n => ⟨.change (fun _ => rfl) .done,
    PlantScript.similar_change (fun plant => { plant with audience := n }) (fun _ => rfl) .done⟩

section Streams

theorem Term.discreet_bits (bus : Bus) (term : Term) : (term.bits bus).Discreet Entry.kept? := by
  cases term with
  | off | on | switch | notification => trivial
  | signal _ test => cases test <;> trivial

theorem Term.discreet_stream (bus : Bus) (term : Term) : (term.stream bus).Discreet Entry.kept? :=
  ⟨fun _ => rfl, term.discreet_bits bus⟩

/-- The notes of an input are not looked at. -/
theorem Formula.discreet_stream (bus : Bus) (formula : Formula) :
    (formula.stream bus).Discreet Entry.kept? := by
  induction formula with
  | operand term => exact term.discreet_stream bus
  | negation _ ih => exact ih
  | conjunction _ _ ih ih' => exact ⟨fun _ => rfl, ih, ih'⟩
  | disjunction _ _ ih ih' => exact ⟨fun _ => rfl, ih, ih'⟩

theorem Input.discreet_evaluate {bus : Bus} {text : String} {stream : BusStream Bool}
    (evaluates : Input.evaluate bus text = some stream) : stream.Discreet Entry.kept? := by
  rw [Input.evaluate, Formula.value?_table] at evaluates
  obtain ⟨formula, _, rfl⟩ := Option.map_eq_some_iff.mp evaluates
  exact formula.discreet_stream bus

/-- A rule that is started remarks nothing that is looked at. -/
theorem EngineConfig.discreet_compile {config : EngineConfig} {bus : Bus} {index : Nat}
    {rule : RuleConfig} {compiled : CompiledRule}
    (compiles : config.compile bus index rule = .ok compiled) :
    compiled.actions.Discreet Entry.kept? := by
  obtain ⟨circuit, _, _, actions⟩ := EngineConfig.circuit_of_compile compiles
  rw [actions]
  exact ⟨circuit.input.discreet_stream bus, circuit.output.discreet_stream bus⟩

end Streams

namespace Drive

open PlantScript

variable (drive : Drive)

theorem plain_noteAnswer (answer : Answer) :
    (drive.noteAnswer answer : PlantScript ς).Plain Plant.holdings Entry.kept? := by
  unfold noteAnswer
  split
  · exact .record rfl .done
  · exact .done
  · exact .record rfl .done
  · exact .record rfl .done

theorem brisk_deliver (sink : Sink ς) (value : Json) :
    (drive.deliver sink value).Brisk Plant.holdings Entry.kept? :=
  .record (brisk_offer sink _ drive.plain_noteAnswer)

theorem brisk_writeLog (action : Action) (outcome : String) {next : PlantScript ς}
    (brisk : next.Brisk Plant.holdings Entry.kept?) :
    (drive.writeLog action outcome next).Brisk Plant.holdings Entry.kept? := by
  unfold writeLog
  split
  · exact .record brisk
  · exact brisk

/-- Whatever the sink answers, a rule that fires has done its part when it publishes. -/
theorem brisk_fire (sink : Sink ς) (action : Action) :
    (drive.fire sink action).Brisk Plant.holdings Entry.kept? := by
  refine .record (.change ?_)
  split
  · rename_i value _
    refine .change (drive.brisk_writeLog _ _ ?_)
    cases value with
    | none => exact .record .done
    | some value => exact drive.brisk_deliver sink value
  · exact .record (drive.brisk_writeLog _ _ (.change .done))

/-- What the log of a rule says came of an action. -/
def outcomeText (action : Action) : String :=
  match drive.output.output action with
  | .ok (some value) => RuleLog.deliveryText drive.mode drive.output.path value
  | .ok none => RuleLog.nothingDelivered
  | .error e => drive.failure e

/-- The lines that an action leaves in rule logs: one if the rule has a log to write to. -/
def lines (action : Action) : List (String × String) :=
  drive.log.toList.map fun directory =>
    (directory, RuleLog.line directory drive.description action (drive.outcomeText action))

theorem told_writeLog (action : Action) (next : PlantScript ς) (plant : Plant ς) :
    ((drive.writeLog action (drive.outcomeText action) next).told Entry.kept? plant).filterMap
        Entry.ruleLine? =
      drive.lines action ++ (next.told Entry.kept? plant).filterMap Entry.ruleLine? := by
  unfold writeLog lines
  cases drive.log <;> rfl

theorem told_deliver (sink : Sink ς) (value : Json) (plant : Plant ς) :
    ((drive.deliver sink value).told Entry.kept? plant).filterMap Entry.ruleLine? = [] := by
  simp only [deliver, note, offer, Script.told]
  cases (sink.offer plant.sink (drive.delivery value)).2 with
  | refused reason =>
    simp only [(drive.plain_noteAnswer _).told]
    rfl
  | taken response echo =>
    simp only [Script.told, (plain_acknowledge sink _ _ (drive.plain_noteAnswer _)).told]
    rfl

/-- A rule that fires writes its line, whatever the sink answers. -/
theorem told_fire (sink : Sink ς) (action : Action) (plant : Plant ς) :
    ((drive.fire sink action).told Entry.kept? plant).filterMap Entry.ruleLine? =
      drive.lines action := by
  simp only [fire, note, Script.told, Entry.kept?, Option.toList_none, List.nil_append]
  cases gives : drive.output.output action with
  | error e =>
    have text : drive.failure e = drive.outcomeText action := by simp only [outcomeText, gives]
    simp only [Script.told, Entry.kept?, Option.toList_none, List.nil_append]
    rw [text, told_writeLog]
    exact List.append_nil _
  | ok value =>
    cases value with
    | none =>
      have text : RuleLog.nothingDelivered = drive.outcomeText action := by
        simp only [outcomeText, gives]
      simp only [carryOut, Script.told]
      rw [text, told_writeLog]
      exact List.append_nil _
    | some value =>
      have text : RuleLog.deliveryText drive.mode drive.output.path value =
          drive.outcomeText action := by simp only [outcomeText, gives]
      simp only [carryOut, Script.told]
      rw [text, told_writeLog, told_deliver, List.append_nil]

end Drive

namespace PlantScript

variable {ς' : Type} {paired : ς → ς' → Prop}

theorem similar_noteAnswer (drive : Drive) (log : Option String) (answer : Answer) :
    Similar paired (drive.noteAnswer answer) ({ drive with log := log }.noteAnswer answer) := by
  unfold Drive.noteAnswer
  dsimp only
  split
  · exact similar_note .done
  · exact .done
  · exact similar_note .done
  · exact similar_note .done

theorem similar_echo (delivery : Delivery) (answer : Answer) {next : PlantScript ς}
    {next' : PlantScript ς'} (h : Similar paired next next') :
    Similar paired (echo delivery answer next) (echo delivery answer next') := by
  unfold echo
  split
  · exact similar_publish _ _ fun _ => h
  · exact h

end PlantScript

open PlantScript in
/-- Sinks that answer alike, and in the same order, make no difference to rules. -/
theorem Sink.agrees_of_offer {ς' : Type} {paired : ς → ς' → Prop} {sink : Sink ς} {sink' : Sink ς'}
    (prompt : sink.prompt = sink'.prompt) (offers : ∀ remembered remembered' delivery,
      paired remembered remembered' →
        paired (sink.offer remembered delivery).1 (sink'.offer remembered' delivery).1 ∧
          (sink.offer remembered delivery).2 = (sink'.offer remembered' delivery).2) :
    sink.Agrees paired sink' := by
  refine Drive.agrees_of_deliver fun drive log value => similar_note (.consult ?_)
  rintro plant plant' ⟨_, sinks⟩
  obtain ⟨later, answers⟩ := offers _ _ (drive.delivery value) sinks
  refine .change (fun _ _ alike => ⟨alike.core, later⟩) ?_
  show Similar paired _ _
  have delivery : { drive with log := log }.delivery value = drive.delivery value := rfl
  rw [delivery, ← answers]
  cases (sink.offer plant.sink (drive.delivery value)).2 with
  | refused reason => exact similar_noteAnswer drive log _
  | taken response echo =>
    refine .record ?_
    unfold acknowledge
    rw [← prompt]
    split
    · exact (similar_noteAnswer drive log _).followedBy (similar_echo _ _ .done)
    · exact similar_echo _ _ (similar_noteAnswer drive log _)

/-- A rule does the same wherever the sink remembers the same. -/
theorem Sink.agrees_self (sink : Sink ς) : sink.Agrees Eq sink :=
  Sink.agrees_of_offer rfl fun _ _ _ same => by rw [same]; exact ⟨rfl, rfl⟩

/-- Whether a sink is watched makes no difference to rules. -/
theorem Sink.recording_agrees (sink : Sink ς) :
    sink.recording.Agrees (fun recorded remembered => recorded.2 = remembered) sink :=
  Sink.agrees_of_offer rfl fun _ _ _ same => by rw [← same]; exact ⟨rfl, rfl⟩

end Switchboard
