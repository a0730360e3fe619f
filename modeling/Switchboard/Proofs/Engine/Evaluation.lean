import Mathlib.Tactic.Choose
import Switchboard.Proofs.Engine.Formula
import Switchboard.Proofs.Engine.Session
import Switchboard.Proofs.Term.Fed

/-!
# Streams of expressions follow the boolean evaluation

A passive listener to the stream of an expression has heard something exactly
when every operand has had a bit, and what it has heard last is the truth
value of the expression for the last bits of its operands. The bits are those
that a listener to the operand's own stream has heard, attached at the same
moment.
-/
namespace Switchboard

open Event Network

namespace Engine

variable {ς α : Type}

/-- What a listener is called with that is attached now and hears some publications. -/
def heard (budget : Nat) (stream : BusStream α) (listener : α → PlantScript ς)
    (values : List (String × Json)) (engine : Engine ς) : Option (List ((β : Type) × β)) :=
  match engine.subscribe budget stream listener with
  | none => none
  | some (listening, _) =>
    match listening.publishAll budget values with
    | none => none
    | some _ =>
      some (calls engine.network.subscriptions.length
        (engine.subscribeEvents budget stream listener ++
          listening.publishAllEvents budget values))

/-- With every budget that is large enough, the listener is called with just these values. -/
def Hears (engine : Engine ς) (stream : BusStream α) (listener : α → PlantScript ς)
    (values : List (String × Json)) (heard : List α) : Prop :=
  ∃ least, ∀ budget, least ≤ budget →
    engine.heard budget stream listener values = some (heard.map (Sigma.mk α))

variable {engine : Engine ς} {events : List (Event Line Json)} {generation : Nat}
variable {kind : ς → Prop}

/--
What a passive listener hears is the course of its stream, in which every term is fed with the
value on its line in the beginning and the values published there since.
-/
theorem Calm.hears (calm : Calm generation kind events engine.network) (stream : BusStream α)
    {listener : α → PlantScript ς} (quiet : ∀ a, (listener a).Quiet (Within generation kind))
    (values : List (String × Json)) :
    ∃ feeds, engine.Hears stream listener values (stream.course feeds).2 ∧
      ∀ (bus : Bus) (term : Term) (before after : List (Leaf Line)),
        bus.generation = generation →
        stream.leaves = before ++ (term.stream bus).leaves ++ after →
        term.Fed bus (engine.network.latest (bus.line term.path))
          (Event.valuesAt (bus.line term.path) (onLines generation values))
          (Stream.window before.length (term.stream bus).leaves.length feeds) := by
  obtain ⟨es, middle, run, calm', still, _, state, there⟩ := calm.subscribe stream quiet
  obtain ⟨least, ends⟩ := subscribe_of_run run
  have fresh : Calm generation kind (events ++ es) (engine.withNetwork middle).network := calm'
  obtain ⟨least', es', last, calm'', keeps, _, sent_es', ends'⟩ := fresh.publishAll values
  have sound := calm''.sound
  obtain ⟨state', there'⟩ : ∃ state', last.subscriptions[engine.network.subscriptions.length]? =
      some ⟨stream, state', listener⟩ :=
    keeps _ _ there
  have small := (List.getElem?_eq_some_iff.mp there).1
  have prompt : Prompt engine.network.subscriptions.length events (events ++ es ++ es') :=
    calm'.sound.prompt_more (calm.sound.prompt still) small keeps sound
  refine ⟨feeds engine.network.subscriptions.length (events ++ es ++ es'), ?_, ?_⟩
  · refine ⟨max least least', fun budget enough => ?_⟩
    obtain ⟨attached, watched⟩ := ends budget (by omega)
    obtain ⟨published, watched'⟩ := ends' budget (by omega)
    have none_before := (calm.sound.recorded.fresh _ (Nat.le_refl _)).2
    have calls_eq := sound.recorded.calls _ _ there'
    rw [List.append_assoc, calls_append, none_before, List.nil_append] at calls_eq
    rw [heard, attached]
    simp only [published, watched, watched', calls_eq, List.append_assoc]
  · intro bus term before after same split
    have leaves (leaf : Nat) (inside : leaf < (term.stream bus).leaves.length) :
        last.leafAt engine.network.subscriptions.length (before.length + leaf) =
          (term.stream bus).leaves[leaf]? := by
      simp [leafAt, there', split, inside, List.getElem?_append]
    have at_signal (signal : term.path? ≠ none) :
        last.leafAt engine.network.subscriptions.length before.length =
          some (.subject (bus.line term.path)) := by
      rcases Term.leaves_signal bus signal with h | h <;>
        simpa [h] using leaves 0 (by simp [h])
    have since : departures (bus.line term.path) (es ++ es') =
        Event.valuesAt (bus.line term.path) (onLines generation values) := by
      rw [departures, sent_append, sent_still still, List.nil_append, sent_es']
    have now : engine.network.latest (bus.line term.path) =
        (departures (bus.line term.path) events).getLast? :=
      calm.sound.flowing.latest _
    have heard (signal : term.path? ≠ none) :=
      sound.heard_at_rest calm''.staying (List.append_assoc ..) prompt (at_signal signal)
    refine Term.fed_of_sound sound bus leaves
      (fun leaf => reached_at_rest (List.getElem?_eq_some_iff.mp there').1) ?_ ?_
    · intro signal
      rw [now]
      exact (heard signal).1
    · intro signal
      rw [now, ← since]
      exact (heard signal).2

/-- Making paths known changes nothing that listeners notice. -/
theorem Calm.touch (calm : Calm generation kind events engine.network) (paths : List String) :
    Calm generation kind events (engine.touch paths).network :=
  ⟨calm.sound.congr rfl rfl,
    calm.passive.alike ⟨rfl, rfl⟩
      ⟨(touchAll_generation _ paths).trans calm.passive.holds.1, calm.passive.holds.2⟩,
    calm.staying⟩

/-- The last bit that a passive listener to a term's stream hears. -/
theorem Calm.hears_term (calm : Calm generation kind events engine.network) (bus : Bus)
    (same : bus.generation = generation) {listener : Bool → PlantScript ς}
    (quiet : ∀ b, (listener b).Quiet (Within generation kind)) (values : List (String × Json))
    (term : Term) :
    ∃ bits, engine.Hears (term.stream bus) listener values bits ∧
      bits.getLast? = term.bitAfter (engine.network.latest (bus.line term.path))
        (Event.valuesAt (bus.line term.path) (onLines generation values)) := by
  obtain ⟨feeds, hears, fed⟩ := calm.hears (term.stream bus) quiet values
  refine ⟨_, hears, ?_⟩
  have whole := fed bus term [] [] same (by simp)
  rw [← Term.last_stream bus whole, Stream.last, List.length_nil, Stream.course_window]

/-- The last value that a passive listener to the stream of a formula hears. -/
theorem Calm.hears_formula (calm : Calm generation kind events engine.network) (bus : Bus)
    (same : bus.generation = generation) {listener : Bool → PlantScript ς}
    (quiet : ∀ b, (listener b).Quiet (Within generation kind)) (values : List (String × Json))
    (formula : Formula) :
    ∃ truths, engine.Hears (formula.stream bus) listener values truths ∧
      truths.getLast? = formula.value fun term =>
        term.bitAfter (engine.network.latest (bus.line term.path))
          (Event.valuesAt (bus.line term.path) (onLines generation values)) := by
  obtain ⟨feeds, hears, fed⟩ := calm.hears (formula.stream bus) quiet values
  refine ⟨_, hears, ?_⟩
  have bits : formula.lastBits bus 0 feeds = formula.operands.map fun term =>
      term.bitAfter (engine.network.latest (bus.line term.path))
        (Event.valuesAt (bus.line term.path) (onLines generation values)) := by
    rw [← formula.map_places bus 0, List.map_map]
    refine List.map_congr_left fun place member => ?_
    obtain ⟨before, after, split, here⟩ := formula.leaves_places bus 0 place member
    rw [here, Nat.zero_add]
    exact Term.last_stream bus (fed bus place.2 before after same split)
  have last := formula.last_valueOn bus 0 feeds
  rwa [Stream.last, Stream.course_window, bits, Formula.valueOn_map] at last

/--
The stream of an expression agrees with the boolean evaluation of the expression, for a passive
listener that is attached after some publications and hears some more: it has heard something
exactly when every operand has carried a bit on a stream of its own, subscribed at the same moment,
and what it has heard last is the truth value for the last of these bits.
-/
theorem evaluate_agrees_with_booleans (sink : Sink ς) (remembered : ς)
    (logs : Option RuleLog.Site) (before after : List (String × Json)) (text : String)
    (listener : Bool → PlantScript ς) (passive : ∀ b, (listener b).Quiet (InGeneration 0)) :
    ∃ engine, (Engine.new sink remembered logs).Publishes before engine ∧
      ∀ stream, Input.evaluate engine.plant.bus text = some stream →
        ∃ (values : List Bool) (bits : Term → List Bool),
          (engine.touch (Input.paths text)).Hears stream listener after values ∧
          (∀ term, (engine.touch (Input.paths text)).Hears (term.stream engine.plant.bus) listener
            after (bits term)) ∧
          (values ≠ [] ↔ ∀ token ∈ Formula.operandsOf text,
            ∃ term, Term.ofText? token = some term ∧ bits term ≠ []) ∧
          values.getLast? = (Expr.Table.booleans fun token =>
            (Term.ofText? token).bind fun term => (bits term).getLast?).value? text := by
  have quiet : ∀ b, (listener b).Quiet (Within 0 fun _ => True) := by
    rw [within_true]
    exact passive
  have fresh : Calm 0 (fun _ => True) [] (Engine.new sink remembered logs).network := .start trivial
  obtain ⟨least, es, network, calm, _, _, _, ends⟩ := fresh.publishAll before
  refine ⟨(Engine.new sink remembered logs).withNetwork network,
    ⟨least, fun budget enough => (ends budget enough).1⟩, fun stream found => ?_⟩
  have fresh : Calm 0 (fun _ => True) ([] ++ es)
      ((Engine.new sink remembered logs).withNetwork network).network := calm
  have touched := fresh.touch (Input.paths text)
  have generation : ((Engine.new sink remembered logs).withNetwork network).plant.bus.generation = 0 :=
    calm.passive.holds.1
  rw [Input.evaluate, Formula.value?_table] at found
  obtain ⟨formula, text_formula, rfl⟩ := Option.map_eq_some_iff.mp found
  have terms := touched.hears_term _ generation quiet after
  choose bits hears last using terms
  obtain ⟨values, heard, truth⟩ := touched.hears_formula _ generation quiet after formula
  rw [funext fun term => (last term).symm] at truth
  refine ⟨values, bits, heard, hears, ?_, ?_⟩
  · have operands := Formula.operands_of_value? text_formula
    have some_last {bs : List Bool} : bs ≠ [] ↔ bs.getLast?.isSome := by simp
    rw [some_last, truth, Formula.value_isSome]
    constructor
    · intro all token member
      have image : Term.ofText? token ∈ formula.operands.map some := by
        rw [← operands]
        exact List.mem_map_of_mem member
      obtain ⟨term, operand, same⟩ := List.mem_map.mp image
      exact ⟨term, same.symm, some_last.mpr (all term operand)⟩
    · intro all term operand
      have image : some term ∈ (Formula.operandsOf text).map Term.ofText? := by
        rw [operands]
        exact List.mem_map_of_mem operand
      obtain ⟨token, member, same⟩ := List.mem_map.mp image
      obtain ⟨term', same', some_bit⟩ := all token member
      obtain rfl : term' = term := Option.some.inj (same'.symm.trans same)
      exact some_last.mp some_bit
  · rw [Formula.value?_booleans, text_formula, truth]
    rfl

/-- An input that reads a path twice, heard over a change of that path. -/
theorem evaluate_agrees_over_change : ∃ engine values,
    (Engine.new Outlet.sink (.limited none "" false) none).Publishes [("p", .int 1)] engine ∧
      (∃ stream, Input.evaluate engine.plant.bus "p and not q or p" = some stream ∧
        (engine.touch (Input.paths "p and not q or p")).Hears stream (fun _ => .done)
          [("q", .int 1), ("p", .int 0)] values) := by
  obtain ⟨engine, published, agrees⟩ :=
    evaluate_agrees_with_booleans Outlet.sink (.limited none "" false) none [("p", .int 1)]
      [("q", .int 1), ("p", .int 0)] "p and not q or p" (fun _ => .done) fun _ => .done
  have some_formula : (Formula.table.value? "p and not q or p").isSome := by decide
  obtain ⟨stream, found⟩ : ∃ stream,
      Input.evaluate engine.plant.bus "p and not q or p" = some stream := by
    rw [Input.evaluate, Formula.value?_table]
    obtain ⟨formula, h⟩ := Option.isSome_iff_exists.mp some_formula
    exact ⟨_, by rw [h]; rfl⟩
  obtain ⟨values, _, heard, _⟩ := agrees stream found
  exact ⟨engine, values, published, stream, found, heard⟩

end Engine

end Switchboard
