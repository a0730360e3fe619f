import Switchboard.Proofs.Engine.Evaluation
import Switchboard.Proofs.Term.Latest
import Switchboard.Proofs.Term.Readback

/-!
# What is heard last of a term

What listeners hear last on the stream of a term depends on when they are
attached, but not on who they are. Those that are attached before some
publications may hear another bit last than those that come after. A value that
has been delivered for an action is heard as the action by both.
-/
namespace Switchboard

open Event Network

namespace Engine

variable {ς : Type}

/-- What every passive listener has heard last that is attached now, after some publications. -/
def LastHeard (engine : Engine ς) (term : Term) (values : List (String × Json))
    (bit : Option Bool) : Prop :=
  ∀ listener : Bool → PlantScript ς,
    (∀ b, (listener b).Quiet (InGeneration engine.plant.bus.generation)) →
      ∃ bits, engine.Hears (term.stream engine.plant.bus) listener values bits ∧
        bits.getLast? = bit

variable {engine : Engine ς} {events : List (Event Line Json)} {generation : Nat}

theorem Calm.lastHeard (calm : Calm generation (fun _ => True) events engine.network) (term : Term)
    (values : List (String × Json)) :
    engine.LastHeard term values (term.bitAfter
      (engine.network.latest ⟨generation, term.path⟩)
      (Event.valuesAt ⟨generation, term.path⟩ (onLines generation values))) := by
  have here : engine.plant.bus.generation = generation := calm.passive.holds.1
  intro listener quiet
  rw [here, ← within_true] at quiet
  obtain ⟨bits, hears, last⟩ := calm.hears_term engine.plant.bus here quiet values term
  rw [Bus.line, here] at last
  exact ⟨bits, hears, last⟩

/-- What listeners hear last that are attached before some publications, and after them. -/
theorem exists_lastHeard (sink : Sink ς) (remembered : ς) (logs : Option RuleLog.Site)
    (before values : List (String × Json)) :
    ∃ engine after, (Engine.new sink remembered logs).Publishes before engine ∧
      engine.Publishes values after ∧ ∀ term : Term,
        after.network.latest ⟨0, term.path⟩ =
          ((engine.network.latest ⟨0, term.path⟩).toList ++
            Event.valuesAt ⟨0, term.path⟩ (onLines 0 values)).getLast? ∧
        engine.LastHeard term values (term.bitAfter (engine.network.latest ⟨0, term.path⟩)
          (Event.valuesAt ⟨0, term.path⟩ (onLines 0 values))) ∧
        after.LastHeard term [] (term.bitAfter (after.network.latest ⟨0, term.path⟩) []) := by
  have fresh : Calm 0 (fun _ => True) [] (Engine.new sink remembered logs).network := .start trivial
  obtain ⟨least, es, network, calm, _, _, _, ends⟩ := fresh.publishAll before
  have calm' : Calm 0 (fun _ => True) ([] ++ es)
      ((Engine.new sink remembered logs).withNetwork network).network := calm
  obtain ⟨least', es', network', calm'', _, _, sent_es', ends'⟩ := calm'.publishAll values
  have last : Calm 0 (fun _ => True) ([] ++ es ++ es')
      (((Engine.new sink remembered logs).withNetwork network).withNetwork network').network :=
    calm''
  refine ⟨_, _, ⟨least, fun budget enough => (ends budget enough).1⟩,
    ⟨least', fun budget enough => (ends' budget enough).1⟩, fun term => ⟨?_, ?_, ?_⟩⟩
  · have now := calm'.sound.flowing.latest ⟨0, term.path⟩
    have later := last.sound.flowing.latest ⟨0, term.path⟩
    rw [Network.latest, Network.latest, now, later, getLast?_latest_append, departures_append,
      departures, departures, sent_es']
  · exact calm'.lastHeard term values
  · exact last.lastHeard term []

theorem valuesAt_onLines_snoc (generation : Nat) (path : String) (values : List (String × Json))
    (value : Json) :
    Event.valuesAt ⟨generation, path⟩ (onLines generation (values ++ [(path, value)])) =
      Event.valuesAt ⟨generation, path⟩ (onLines generation values) ++ [value] := by
  simp [onLines]

/-- The bit of a published value is heard by listeners that were there before and by later ones. -/
theorem lastHeard_published (sink : Sink ς) (remembered : ς) (logs : Option RuleLog.Site)
    (before between : List (String × Json)) {term : Term} (signal : term.path? ≠ none)
    {value : Json} {b : Bool} (reads : term.reading value = some b) :
    ∃ engine after, (Engine.new sink remembered logs).Publishes before engine ∧
      engine.Publishes (between ++ [(term.path, value)]) after ∧
      engine.LastHeard term (between ++ [(term.path, value)]) (some b) ∧
      after.LastHeard term [] (some b) := by
  obtain ⟨engine, after, published, published', heard⟩ :=
    exists_lastHeard sink remembered logs before (between ++ [(term.path, value)])
  obtain ⟨latest, early, late⟩ := heard term
  refine ⟨engine, after, published, published', ?_, ?_⟩
  · rwa [valuesAt_onLines_snoc, Term.bitAfter_snoc signal, reads, Option.some_or] at early
  · rwa [latest, valuesAt_onLines_snoc, ← List.append_assoc, List.getLast?_concat,
      Term.bitAfter_now signal, reads] at late

/--
What a switch, a plain signal or a substitution for two different values delivers for an action,
and what a notification delivers to be raised, is heard as the action once it has been published.
Of a number that stands for off it is assumed that it is read back from its print.
-/
theorem delivered_heard_as_action (sink : Sink ς) (remembered : ς) (logs : Option RuleLog.Site)
    (before between : List (String × Json)) {term : Term} {action : Action}
    (faithful : term.Faithful action) :
    ∃ engine value after, (Engine.new sink remembered logs).Publishes before engine ∧
      term.output action = .ok (some value) ∧
      engine.Publishes (between ++ [(term.path, value)]) after ∧
      engine.LastHeard term (between ++ [(term.path, value)]) (some action.isOn) ∧
      after.LastHeard term [] (some action.isOn) := by
  obtain ⟨value, delivers⟩ := faithful.delivers
  have reads : term.reading value = some action.isOn :=
    (Term.reading_output delivers).trans faithful.readback
  obtain ⟨engine, after, published, published', early, late⟩ :=
    lastHeard_published sink remembered logs before between faithful.signal reads
  exact ⟨engine, value, after, published, delivers, published', early, late⟩

/-- A substitution for two numbers, one of which is printed in another way than it is written. -/
theorem hundred_heard_as_off : ∃ term engine value after,
    Term.ofText? "o:2.5:1e2" = some term ∧
    (Engine.new Outlet.sink (.limited none "" false) none).Publishes [("o", .float (.ofNat 7))]
        engine ∧
      term.output .turnOff = .ok (some value) ∧
      engine.Publishes ([("o", .bool true)] ++ [(term.path, value)]) after ∧
      engine.LastHeard term ([("o", .bool true)] ++ [(term.path, value)]) (some false) ∧
      after.LastHeard term [] (some false) := by
  have faithful : (Term.signal "o" (.substitute "2.5" "1e2")).Faithful .turnOff :=
    ⟨by decide +kernel, by decide +kernel⟩
  obtain ⟨engine, value, after, heard⟩ :=
    delivered_heard_as_action Outlet.sink (.limited none "" false) none [("o", .float (.ofNat 7))]
      [("o", .bool true)] faithful
  exact ⟨_, engine, value, after, by decide, heard⟩

end Engine

end Switchboard
