import Switchboard.Proofs.Engine.Evaluation
import Switchboard.Proofs.Term.Received

/-!
# What the listeners of a term receive

An engine at rest remembers of all publications what its listeners will be
told: the latest value on each line. It does not matter who has listened to
them. A passive listener to the stream of a term receives what is read off the
values published before it comes and those published afterwards, and so does a
listener that comes to the same stream when the first one has gone.
-/
namespace Switchboard

open Event Network

namespace Engine

variable {ς α : Type}

/-- With every budget that is large enough, a listener is attached. -/
def Subscribes (engine : Engine ς) (stream : BusStream α) (listener : α → PlantScript ς)
    (listening : Engine ς) (handle : Handle Line) : Prop :=
  ∃ least, ∀ budget, least ≤ budget →
    engine.subscribe budget stream listener = some (listening, handle)

theorem onLines_append (generation : Nat) (values more : List (String × Json)) :
    onLines generation (values ++ more) = onLines generation values ++ onLines generation more :=
  List.map_append

theorem valuesAt_onLines (generation : Nat) (path : String) (values : List (String × Json)) :
    Event.valuesAt ⟨generation, path⟩ (onLines generation values) = Event.valuesAt path values := by
  rw [Event.valuesAt, onLines, List.filterMap_map, Event.valuesAt]
  refine List.filterMap_congr fun value _ => ?_
  by_cases here : value.1 = path <;> simp [here]

/-- At rest, with passive listeners only, after some publications. -/
structure Told (generation : Nat) (values : List (String × Json)) (events : List (Event Line Json))
    (engine : Engine ς) : Prop where
  rest : AtRest (Within generation fun _ => True) events engine.network
  sends : sent events = onLines generation values

namespace Told

variable {generation : Nat} {values : List (String × Json)} {events : List (Event Line Json)}
variable {engine : Engine ς}

theorem start (sink : Sink ς) (remembered : ς) (logs : Option RuleLog.Site) :
    Told 0 [] [] (Engine.new sink remembered logs) :=
  ⟨.start ⟨rfl, trivial⟩, rfl⟩

theorem publish (told : Told generation values events engine) (more : List (String × Json)) :
    ∃ es after, engine.Publishes more after ∧ Told generation (values ++ more) (events ++ es) after := by
  obtain ⟨least, es, network, rest, _, _, _, sends, _, ends⟩ := exists_publications told.rest more
  refine ⟨es, engine.withNetwork network, ⟨least, fun budget enough => (ends budget enough).1⟩,
    rest, ?_⟩
  rw [sent_append, told.sends, sends, onLines_append]

theorem touch (told : Told generation values events engine) (paths : List String) :
    Told generation values events (engine.touch paths) := by
  refine ⟨⟨told.rest.sound.congr rfl rfl, told.rest.passive.alike ⟨rfl, rfl⟩ ?_⟩, told.sends⟩
  exact ⟨(touchAll_generation _ paths).trans told.rest.passive.holds.1, trivial⟩

/-- Whoever goes leaves behind what has been published. -/
theorem detach (told : Told generation values events engine)
    (registrations : List (Registration Line)) :
    ∃ es, Told generation values (events ++ es) (engine.detach registrations) := by
  have met : Met (Within generation fun _ => True) events engine.network (.detach registrations)
      (registrations.map .detached) (engine.network.detach registrations) :=
    told.rest.met trivial (run_detach engine.network registrations)
  refine ⟨_, met.rest, ?_⟩
  rw [sent_append, told.sends, met.sends]
  exact List.append_nil _

/-- A listener hears what is read off its stream. -/
theorem hears (told : Told generation values events engine) (stream : BusStream α)
    {listener : α → PlantScript ς}
    (quiet : ∀ a, (listener a).Quiet (Within generation fun _ => True))
    (more : List (String × Json)) :
    engine.Hears stream listener more ((stream.begins engine.network.latest).toList ++
        (stream.rounds engine.network.latest (onLines generation more)).flatten) ∧
      ∃ listening handle es ended, engine.Subscribes stream listener listening handle ∧
        listening.Publishes more ended ∧ Told generation (values ++ more) (events ++ es) ended := by
  obtain ⟨es, network, run, joined⟩ := told.rest.join stream quiet
  obtain ⟨least, ends⟩ := subscribe_of_run run
  have rest : AtRest (Within generation fun _ => True) (events ++ es)
      (engine.withNetwork network).network := joined.rest
  obtain ⟨least', es', last, rest', _, keeps, _, sends, visited, ends'⟩ :=
    exists_publications rest more
  have called := joined.calls_later keeps rest' (visited _ stream events es rfl joined.attends)
  refine ⟨⟨max least least', fun budget enough => ?_⟩, _, _, es ++ es', engine.withNetwork last,
    ⟨least, fun budget enough => (ends budget enough).1⟩,
    ⟨least', fun budget enough => (ends' budget enough).1⟩, ?_, ?_⟩
  · obtain ⟨attached, watched⟩ := ends budget (by omega)
    obtain ⟨published, watched'⟩ := ends' budget (by omega)
    rw [heard, attached]
    simp only [published, watched, watched', calls_append, joined.called, called, List.map_append]
  · rw [← List.append_assoc]
    exact rest'
  · rw [sent_append, sent_append, told.sends, sent_still joined.still, List.nil_append, sends,
      onLines_append]

/-- A listener to the stream of a term receives what is read off the values of its signal. -/
theorem hears_term (told : Told generation values events engine) (bus : Bus)
    (same : bus.generation = generation) (term : Term) {listener : Bool → PlantScript ς}
    (quiet : ∀ b, (listener b).Quiet (Within generation fun _ => True))
    (more : List (String × Json)) :
    engine.Hears (term.stream bus) listener more
      (term.received (Event.valuesAt term.path values) (Event.valuesAt term.path more)) := by
  have heard := (told.hears (term.stream bus) quiet more).1
  have latest := told.rest.latest told.sends
  rw [Term.stream_received bus term (onLines generation values) _ latest] at heard
  rwa [Bus.line, same, valuesAt_onLines, valuesAt_onLines] at heard

end Told

/--
A passive listener to a term that comes after some publications receives what is read off the last
value of the term's signal and the values that follow. When it has gone, a listener to the same
stream receives what a first one that came at that time would.
-/
theorem receives_readings (sink : Sink ς) (remembered : ς) (logs : Option RuleLog.Site)
    (term : Term) (before after between later : List (String × Json))
    (first second : Bool → PlantScript ς) (quiet : ∀ b, (first b).Quiet (InGeneration 0))
    (quiet' : ∀ b, (second b).Quiet (InGeneration 0)) :
    ∃ engine listening handle ended freed,
      (Engine.new sink remembered logs).Publishes before engine ∧
      (engine.touch term.path?.toList).Hears (term.stream engine.plant.bus) first after
        (term.received (Event.valuesAt term.path before) (Event.valuesAt term.path after)) ∧
      (engine.touch term.path?.toList).Subscribes (term.stream engine.plant.bus) first listening
        handle ∧
      listening.Publishes after ended ∧ (ended.detach handle.released).Publishes between freed ∧
      (freed.touch term.path?.toList).Hears (term.stream engine.plant.bus) second later
        (term.received (Event.valuesAt term.path (before ++ after ++ between))
          (Event.valuesAt term.path later)) := by
  rw [← within_true] at quiet quiet'
  obtain ⟨_, engine, published, told⟩ := (Told.start sink remembered logs).publish before
  have same : engine.plant.bus.generation = 0 := told.rest.passive.holds.1
  have touched := told.touch term.path?.toList
  obtain ⟨_, listening, handle, _, ended, subscribed, published', heard⟩ :=
    touched.hears (term.stream engine.plant.bus) quiet after
  obtain ⟨_, left⟩ := heard.detach handle.released
  obtain ⟨_, freed, published'', between_told⟩ := left.publish between
  exact ⟨engine, listening, handle, ended, freed, published,
    touched.hears_term _ same term quiet after, subscribed, published', published'',
    (between_told.touch _).hears_term _ same term quiet' later⟩

/-- A substitution that takes zero for on, with a value that is no bit and others that come again. -/
theorem inverted_receives : ∃ term engine listening handle ended freed,
    Term.ofText? "o:0:1" = some term ∧
    (Engine.new Outlet.sink (.limited none "" false) none).Publishes [] engine ∧
    (engine.touch ["o"]).Hears (term.stream engine.plant.bus) (fun _ => .done)
      [("o", .int 0), ("o", .string "?"), ("q", .int 1), ("o", .int 1)] [true, false] ∧
    (engine.touch ["o"]).Subscribes (term.stream engine.plant.bus) (fun _ => .done) listening
      handle ∧
    listening.Publishes [("o", .int 0), ("o", .string "?"), ("q", .int 1), ("o", .int 1)] ended ∧
    (ended.detach handle.released).Publishes [] freed ∧
    (freed.touch ["o"]).Hears (term.stream engine.plant.bus) (fun _ => .done) [("o", .int 1)]
      [false] := by
  obtain ⟨engine, listening, handle, ended, freed, published, hears, subscribed, published',
      published'', hears'⟩ :=
    receives_readings Outlet.sink (.limited none "" false) none
      (.signal "o" (.substitute "0" "1")) []
      [("o", .int 0), ("o", .string "?"), ("q", .int 1), ("o", .int 1)] [] [("o", .int 1)]
      (fun _ => .done) (fun _ => .done) (fun _ => .done) (fun _ => .done)
  have first : (Term.signal "o" (.substitute "0" "1")).received []
      [.int 0, .string "?", .int 1] = [true, false] := by decide
  have second : (Term.signal "o" (.substitute "0" "1")).received
      [.int 0, .string "?", .int 1] [.int 1] = [false] := by decide
  rw [← first, ← second]
  exact ⟨_, engine, listening, handle, ended, freed, by decide, published, hears, subscribed,
    published', published'', hears'⟩

end Engine

end Switchboard
