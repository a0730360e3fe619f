import Switchboard.Proofs.Engine.Firing

/-!
# What rules offer

A sink may be watched: whatever it is offered is put down, and its answer is
passed on as it is. What a rule that fires does to the plant can then be told
from the rule and the action alone. It offers the value that its output gives
for the action, if it gives one, and it counts the action, unless its output
cannot be driven. The answer of the sink has no part in this.
-/
namespace Switchboard

open Switchboard.Stream

/-- A sink that puts down what it is offered, before it answers. -/
def Sink.recording {ς : Type} (sink : Sink ς) : Sink (List Delivery × ς) where
  offer remembered delivery :=
    let (next, answer) := sink.offer remembered.2 delivery
    ((remembered.1 ++ [delivery], next), answer)
  prompt := sink.prompt

/-- What a sink remembers after some deliveries. -/
def Sink.after {ς : Type} (sink : Sink ς) (remembered : ς) (deliveries : List Delivery) : ς :=
  deliveries.foldl (fun remembered delivery => (sink.offer remembered delivery).1) remembered

theorem Sink.after_nil {ς : Type} (sink : Sink ς) (remembered : ς) :
    sink.after remembered [] = remembered := rfl

theorem Sink.recording_after {ς : Type} (sink : Sink ς) (remembered : List Delivery × ς)
    (deliveries : List Delivery) :
    (sink.recording.after remembered deliveries).1 = remembered.1 ++ deliveries := by
  induction deliveries generalizing remembered with
  | nil => exact (List.append_nil _).symm
  | cons delivery rest ih => exact (ih _).trans (List.append_assoc _ [delivery] rest)

theorem Sink.Silent.recording {ς : Type} {sink : Sink ς} {kind : ς → Prop}
    (silent : sink.Silent kind) : sink.recording.Silent fun remembered => kind remembered.2 where
  stays remembered here := silent.stays remembered.2 here
  no_echo remembered here := silent.no_echo remembered.2 here

namespace PlantScript

variable {ς : Type}

theorem outcome_echo (delivery : Delivery) (answer : Answer) {next : PlantScript ς}
    (nothing : ∀ plant, next.outcome plant = plant) (plant : Plant ς) :
    ((echo delivery answer next).outcome plant).sink = plant.sink ∧
      ((echo delivery answer next).outcome plant).tallies = plant.tallies := by
  unfold echo
  split
  · exact ⟨rfl, rfl⟩
  · rw [nothing]
    exact ⟨rfl, rfl⟩

/-- A delivery that is offered changes what the sink remembers, and no tally. -/
theorem outcome_offer (sink : Sink ς) (delivery : Delivery) {next : Answer → PlantScript ς}
    (nothing : ∀ answer plant, (next answer).outcome plant = plant)
    (passes : ∀ answer later plant,
      ((next answer).followedBy later).outcome plant = later.outcome plant) (plant : Plant ς) :
    ((offer sink delivery next).outcome plant).sink = (sink.offer plant.sink delivery).1 ∧
      ((offer sink delivery next).outcome plant).tallies = plant.tallies := by
  simp only [offer, Script.outcome]
  cases (sink.offer plant.sink delivery).2 with
  | refused reason => simp only [nothing, and_self]
  | taken response echo =>
    simp only [Script.outcome, acknowledge]
    split
    · rw [passes]
      exact outcome_echo _ _ (fun _ => rfl) _
    · exact outcome_echo _ _ (nothing _) _

end PlantScript

namespace Drive

variable {ς : Type} (drive : Drive)

/-- What is offered for an action. -/
def offers (action : Action) : List Delivery :=
  match drive.output.output action with
  | .ok (some value) => [drive.delivery value]
  | _ => []

/-- A tally when an action has been fired. -/
def counted (action : Action) (tally : Tally) : Tally :=
  match drive.output.output action with
  | .ok _ => tally.count action
  | .error _ => tally

theorem outcome_writeLog (action : Action) (outcome : String) (next : PlantScript ς)
    (plant : Plant ς) : (drive.writeLog action outcome next).outcome plant = next.outcome plant := by
  unfold writeLog
  split <;> rfl

theorem outcome_noteAnswer (answer : Answer) (plant : Plant ς) :
    (drive.noteAnswer answer : PlantScript ς).outcome plant = plant := by
  unfold noteAnswer
  split <;> rfl

theorem outcome_noteAnswer_followedBy (answer : Answer) (later : PlantScript ς) (plant : Plant ς) :
    ((drive.noteAnswer answer).followedBy later).outcome plant = later.outcome plant := by
  unfold noteAnswer
  split <;> rfl

theorem outcome_deliver (sink : Sink ς) (value : Json) (plant : Plant ς) :
    ((drive.deliver sink value).outcome plant).sink =
        (sink.offer plant.sink (drive.delivery value)).1 ∧
      ((drive.deliver sink value).outcome plant).tallies = plant.tallies :=
  PlantScript.outcome_offer sink _ drive.outcome_noteAnswer drive.outcome_noteAnswer_followedBy
    plant

/-- What a rule that fires does to the sink and to the tallies. -/
theorem outcome_fire (sink : Sink ς) (action : Action) (plant : Plant ς) :
    ((drive.fire sink action).outcome plant).sink =
        sink.after plant.sink (drive.offers action) ∧
      ((drive.fire sink action).outcome plant).tallies =
        plant.tallies.modify drive.rule (drive.counted action) := by
  simp only [fire, PlantScript.note, Script.outcome]
  cases gives : drive.output.output action with
  | error e =>
    have offers : drive.offers action = [] := by simp only [Drive.offers, gives]
    have counted : drive.counted action = id := by
      funext tally
      simp only [Drive.counted, gives, id_eq]
    simp only [Script.outcome, outcome_writeLog, offers, counted, List.modify_id,
      Plant.setError, Plant.setMessage, Sink.after_nil, and_self]
  | ok value =>
    have counted : drive.counted action = (·.count action) := by
      funext tally
      simp only [Drive.counted, gives]
    cases value with
    | none =>
      have offers : drive.offers action = [] := by simp only [Drive.offers, gives]
      simp only [carryOut, PlantScript.note, Script.outcome, outcome_writeLog, offers, counted,
        Plant.count, Plant.setMessage, Sink.after_nil, and_self]
    | some value =>
      have offers : drive.offers action = [drive.delivery value] := by
        simp only [Drive.offers, gives]
      obtain ⟨remembered, tallies⟩ := drive.outcome_deliver sink value
        ((plant.setMessage ("switching " ++ drive.description ++ " " ++ action.label)).count
          drive.rule action)
      simp only [carryOut, Script.outcome, outcome_writeLog, offers, counted]
      exact ⟨remembered, tallies⟩

/-- What a rule that fires does to a watched sink and to the tallies. -/
theorem recorded_fire (sink : Sink ς) (action : Action) (plant : Plant (List Delivery × ς)) :
    ((drive.fire sink.recording action).outcome plant).sink.1 =
        plant.sink.1 ++ drive.offers action ∧
      ((drive.fire sink.recording action).outcome plant).tallies =
        plant.tallies.modify drive.rule (drive.counted action) := by
  obtain ⟨remembered, tallies⟩ := drive.outcome_fire sink.recording action plant
  exact ⟨by rw [remembered, Sink.recording_after], tallies⟩

/-- What is offered and counted depends on the post alone. -/
theorem Serves.same {drive other : Drive} {post : Post} {place place' : Nat}
    (serves : drive.Serves post place) (serves' : other.Serves post place') :
    drive.offers = other.offers ∧ drive.counted = other.counted := by
  have delivery : drive.delivery = other.delivery := by
    funext value
    simp only [Drive.delivery, serves.mode, serves'.mode, serves.output, serves'.output]
  refine ⟨funext fun action => ?_, funext fun action => funext fun tally => ?_⟩
  · simp only [Drive.offers, serves.output, serves'.output, delivery]
  · simp only [Drive.counted, serves.output, serves'.output]

end Drive

/-- What a rule does in one step: the actions it fires, and its tally in the end. -/
structure RuleConduct where
  description : String
  fired : List Action
  tally : Tally

/-- What some rules do in one step: the deliveries that are offered, and what each rule does. -/
structure Conduct where
  offered : List Delivery
  rules : List RuleConduct

/-- What several groups of rules do when each does what it does alone, one group after the other. -/
def Conduct.join (parts : List Conduct) : Conduct :=
  ⟨parts.flatMap (·.offered), parts.flatMap (·.rules)⟩

namespace Post

variable (post : Post)

/-- A drive for the post, as it would be if there were no other and no log. -/
def drive : Drive := ⟨0, post.description, post.circuit.output, post.mode, none⟩

theorem serves_drive : post.drive.Serves post 0 := ⟨rfl, rfl, rfl⟩

/-- The actions that some more feeds bring about. -/
def fired (feeds more : List (Nat × Option Json)) : List Action :=
  post.circuit.actions.emitted feeds more

/-- What is offered for them. -/
def offers (feeds more : List (Nat × Option Json)) : List Delivery :=
  (post.fired feeds more).flatMap post.drive.offers

/-- The tally after some feeds. -/
def tally (feeds : List (Nat × Option Json)) : Tally :=
  (post.circuit.actions.course feeds).2.foldl (fun tally action => post.drive.counted action tally)
    .zero

theorem offers_nil (feeds : List (Nat × Option Json)) : post.offers feeds [] = [] := by
  rw [offers, fired, emitted_nil]
  rfl

theorem offers_append (feeds more later : List (Nat × Option Json)) :
    post.offers feeds (more ++ later) =
      post.offers feeds more ++ post.offers (feeds ++ more) later := by
  rw [offers, fired, emitted_append, List.flatMap_append]
  rfl

theorem tally_append (feeds more : List (Nat × Option Json)) :
    post.tally (feeds ++ more) = (post.fired feeds more).foldl
      (fun tally action => post.drive.counted action tally) (post.tally feeds) := by
  rw [tally, course_append, List.foldl_append]
  rfl

/-- What the rule at the post does when it takes in some more feeds. -/
def part (feeds more : List (Nat × Option Json)) : RuleConduct :=
  ⟨post.description, post.fired feeds more, post.tally (feeds ++ more)⟩

/-- The same, with what is offered meanwhile. -/
def conduct (feeds more : List (Nat × Option Json)) : Conduct :=
  ⟨post.offers feeds more, [post.part feeds more]⟩

end Post

theorem Conduct.join_rules (posts : List Post) (feeds more : Post → List (Nat × Option Json)) :
    (Conduct.join (posts.map fun post => post.conduct (feeds post) (more post))).rules =
      posts.map fun post => post.part (feeds post) (more post) := by
  simp only [join, Post.conduct, List.flatMap_map]
  exact List.flatMap_pure_eq_map _ posts

theorem Conduct.join_offered (posts : List Post) (feeds more : Post → List (Nat × Option Json)) :
    (Conduct.join (posts.map fun post => post.conduct (feeds post) (more post))).offered =
      posts.flatMap fun post => post.offers (feeds post) (more post) := by
  simp only [join, Post.conduct, List.flatMap_map]

end Switchboard
