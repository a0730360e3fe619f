import Switchboard.Proofs.Engine.Reception

/-!
# Several listeners at once

Listeners are attached to several streams, one after the other, and then hear
the same publications. Whoever is attached takes in the latest values and is
left alone while others are attached; a published value goes to the leaves of
all of them. So each hears what it would hear if it were alone.
-/
namespace Switchboard

open Event Network

namespace Engine

variable {ς α : Type}

/-- Attaches listeners to streams, one after the other. -/
def subscribeAll (budget : Nat) :
    List (BusStream α × (α → PlantScript ς)) → Engine ς → Option (Engine ς)
  | [], engine => some engine
  | (stream, listener) :: rest, engine =>
    match engine.subscribe budget stream listener with
    | some (after, _) => subscribeAll budget rest after
    | none => none

/-- What happens when several listeners are attached. -/
def subscribeAllEvents (budget : Nat) :
    List (BusStream α × (α → PlantScript ς)) → Engine ς → List (Event Line Json)
  | [], _ => []
  | (stream, listener) :: rest, engine =>
    engine.subscribeEvents budget stream listener ++
      match engine.subscribe budget stream listener with
      | some (after, _) => subscribeAllEvents budget rest after
      | none => []

/-- What each of several listeners is called with that are attached now and hear some publications. -/
def heardTogether (budget : Nat) (seats : List (BusStream α × (α → PlantScript ς)))
    (values : List (String × Json)) (engine : Engine ς) : Option (List (List ((β : Type) × β))) :=
  match engine.subscribeAll budget seats with
  | none => none
  | some listening =>
    match listening.publishAll budget values with
    | none => none
    | some _ =>
      some ((List.range seats.length).map fun seat =>
        calls (engine.network.subscriptions.length + seat)
          (engine.subscribeAllEvents budget seats ++ listening.publishAllEvents budget values))

/-- With every budget that is large enough, each listener is called with just its values. -/
def HearTogether (engine : Engine ς) (seats : List (BusStream α × (α → PlantScript ς)))
    (values : List (String × Json)) (heard : List (List α)) : Prop :=
  ∃ least, ∀ budget, least ≤ budget →
    engine.heardTogether budget seats values =
      some (heard.map fun values => values.map (Sigma.mk α))

/-- A listener that has taken in the latest values and nothing since. -/
structure Sits (n : Nat) (seat : BusStream α × (α → PlantScript ς)) (now : Line → Option Json)
    (events : List (Event Line Json)) (network : PlantNetwork ς) : Prop where
  there : ∃ state, network.subscriptions[n]? = some ⟨seat.1, state, seat.2⟩
  attends : ∃ past since, events = past ++ since ∧ Attends n seat.1 past since network
  taken : feeds n events = Stream.entering (Stream.opening now) 0 seat.1.leaves

/-- An engine at rest with listeners that have been attached from a certain number on. -/
structure Seated (generation : Nat) (values : List (String × Json)) (first : Nat)
    (seats : List (BusStream α × (α → PlantScript ς))) (events : List (Event Line Json))
    (engine : Engine ς) : Prop where
  told : Told generation values events engine
  number : engine.network.subscriptions.length = first + seats.length
  sits : ∀ i seat, seats[i]? = some seat →
    Sits (first + i) seat (fun line => (Event.valuesAt line (onLines generation values)).getLast?)
      events engine.network

namespace Seated

variable {generation first : Nat} {values : List (String × Json)} {engine : Engine ς}
variable {seats : List (BusStream α × (α → PlantScript ς))} {events : List (Event Line Json)}

theorem start (told : Told generation values events engine) :
    Seated generation values engine.network.subscriptions.length
      ([] : List (BusStream α × (α → PlantScript ς))) events engine :=
  ⟨told, rfl, nofun⟩

/-- One more listener takes a seat, and nobody else notices. -/
theorem join (seated : Seated generation values first seats events engine)
    (stream : BusStream α) {listener : α → PlantScript ς}
    (quiet : ∀ a, (listener a).Quiet (Within generation fun _ => True)) :
    ∃ least es after, (∀ budget, least ≤ budget →
        (∃ handle, engine.subscribe budget stream listener = some (after, handle)) ∧
          engine.subscribeEvents budget stream listener = es) ∧
      Seated generation values first (seats ++ [(stream, listener)]) (events ++ es) after := by
  obtain ⟨es, network, run, joined⟩ := seated.told.rest.join stream quiet
  obtain ⟨least, ends⟩ := subscribe_of_run run
  have met : Met (Within generation fun _ => True) events engine.network
      (.subscribe stream listener) es network := seated.told.rest.met quiet run
  have latest := seated.told.rest.latest seated.told.sends
  refine ⟨least, es, engine.withNetwork network,
    fun budget enough => ⟨⟨_, (ends budget enough).1⟩, (ends budget enough).2⟩, ⟨joined.rest, ?_⟩,
    ?_, ?_⟩
  · rw [sent_append, seated.told.sends, sent_still joined.still, List.append_nil]
  · rw [withNetwork_network, met.number, seated.number, List.length_append]
    exact Nat.add_assoc _ _ _
  · intro i seat here
    rcases Nat.lt_or_ge i seats.length with old | new
    · -- An earlier listener keeps its leaves and takes in nothing.
      rw [List.getElem?_append_left old] at here
      obtain ⟨⟨state, there⟩, ⟨past, since, split, attends⟩, taken⟩ := seated.sits i seat here
      refine ⟨run.keeps _ _ there, ⟨past, since ++ es, ?_, ?_⟩, ?_⟩
      · rw [split, List.append_assoc]
      · exact attends.keep run.keeps (met.spared _ trivial)
      · rw [feeds_append, taken, met.taken _ attends.small]
        exact List.append_nil _
    · obtain rfl : i = seats.length := by
        have inside := (List.getElem?_eq_some_iff.mp here).1
        rw [List.length_append, List.length_singleton] at inside
        omega
      rw [List.getElem?_concat_length] at here
      obtain rfl := Option.some.inj here
      rw [← seated.number]
      refine ⟨joined.there, ⟨events, es, rfl, joined.attends⟩, ?_⟩
      rw [joined.taken, latest]

/-- All take their seats, one after the other. -/
theorem subscribeAll (seated : Seated generation values first seats events engine)
    (more : List (BusStream α × (α → PlantScript ς)))
    (quiet : ∀ seat ∈ more, ∀ a, (seat.2 a).Quiet (Within generation fun _ => True)) :
    ∃ least es after, (∀ budget, least ≤ budget →
        engine.subscribeAll budget more = some after ∧ engine.subscribeAllEvents budget more = es) ∧
      Seated generation values first (seats ++ more) (events ++ es) after := by
  induction more generalizing seats events engine with
  | nil =>
    refine ⟨0, [], engine, fun _ _ => ⟨rfl, rfl⟩, ?_⟩
    rw [List.append_nil, List.append_nil]
    exact seated
  | cons seat more ih =>
    obtain ⟨stream, listener⟩ := seat
    obtain ⟨here, quiet⟩ := List.forall_mem_cons.mp quiet
    obtain ⟨least, es, middle, ends, seated'⟩ := seated.join stream here
    obtain ⟨least', es', last, ends', all⟩ := ih seated' quiet
    refine ⟨max least least', es ++ es', last, fun budget enough => ?_, ?_⟩
    · obtain ⟨⟨handle, attached⟩, watched⟩ := ends budget (by omega)
      obtain ⟨attached', watched'⟩ := ends' budget (by omega)
      rw [Engine.subscribeAll, Engine.subscribeAllEvents, attached, watched]
      exact ⟨attached', congrArg (es ++ ·) watched'⟩
    · rw [← List.append_assoc]
      rwa [List.append_assoc, List.singleton_append] at all

end Seated

/-- Each of several listeners hears what is read off its own stream. -/
theorem Told.hear_together {generation : Nat} {values : List (String × Json)}
    {events : List (Event Line Json)} {engine : Engine ς} (told : Told generation values events engine)
    (seats : List (BusStream α × (α → PlantScript ς)))
    (quiet : ∀ seat ∈ seats, ∀ a, (seat.2 a).Quiet (Within generation fun _ => True))
    (more : List (String × Json)) :
    engine.HearTogether seats more (seats.map fun seat =>
      (seat.1.begins engine.network.latest).toList ++
        (seat.1.rounds engine.network.latest (onLines generation more)).flatten) := by
  obtain ⟨least, es, listening, ends, seated⟩ := (Seated.start told).subscribeAll seats quiet
  rw [List.nil_append] at seated
  obtain ⟨least', es', last, rest, _, keeps, _, _, visited, ends'⟩ :=
    exists_publications seated.told.rest more
  have latest := told.rest.latest told.sends
  refine ⟨max least least', fun budget enough => ?_⟩
  obtain ⟨attached, watched⟩ := ends budget (by omega)
  obtain ⟨published, watched'⟩ := ends' budget (by omega)
  rw [heardTogether, attached]
  simp only [published, watched, watched', Option.some.injEq, List.map_map]
  refine List.ext_getElem? fun i => ?_
  rw [List.getElem?_map, List.getElem?_map]
  cases here : seats[i]? with
  | none =>
    rw [List.getElem?_eq_none (by simpa using here)]
    rfl
  | some seat =>
    have inside := (List.getElem?_eq_some_iff.mp here).1
    rw [List.getElem?_range inside, Option.map_some, Option.map_some, Option.some.injEq]
    obtain ⟨⟨_, there⟩, ⟨past, since, split, attends⟩, taken⟩ := seated.sits i seat here
    -- Before the listeners came nobody was called at their places.
    have silent := (told.rest.sound.recorded.fresh _ (Nat.le_add_right _ i)).2
    obtain ⟨_, there'⟩ := keeps _ _ there
    have called := rest.sound.recorded.calls _ _ there'
    rw [List.append_assoc, calls_append, silent, List.nil_append] at called
    rw [called, ← List.append_assoc, feeds_append, taken, visited _ _ past since split attends,
      ← latest, Stream.course_rounds]
    rfl

end Engine

end Switchboard
