import Mathlib.Data.List.Sort
import Switchboard.Proofs.Network.Rest

/-!
# Subscribers that only listen

Values are published, subscriptions come and registrations are taken back, one
after the other and with the network at rest in between. All listeners are
quiet, so every demand runs to its end and nothing is published but what was
asked for.

The listeners of a subject are in order and complete: those that belong to one
subscription are its leaves at that subject, from left to right. So a published
value visits these leaves in one go, and what the subscription passes on is
read off its stream round by round. What others do makes no difference, not
even with the same stream.
-/
namespace Switchboard

variable {κ ν ρ σ : Type}

open Event

/-- What is asked of a network at rest. -/
inductive Demand (κ ν ρ σ : Type) : Type 1 where
  | publish (key : κ) (value : ν)
  | subscribe {α : Type} (stream : Stream κ ν ρ α) (listener : α → Script κ ν ρ σ)
  | detach (registrations : List (Registration κ))

namespace Demand

def script : Demand κ ν ρ σ → Script κ ν ρ σ
  | .publish key value => .publish key value fun _ => .done
  | .subscribe stream listener => .subscribe stream listener fun _ => .done
  | .detach registrations => .detach registrations .done

def published? : Demand κ ν ρ σ → Option (κ × ν)
  | .publish key value => some (key, value)
  | .subscribe .. | .detach _ => none

/-- What has been published, in this order. -/
def published (demands : List (Demand κ ν ρ σ)) : List (κ × ν) := demands.filterMap published?

/-- The values that subjects have after some demands. -/
def latest [DecidableEq κ] (demands : List (Demand κ ν ρ σ)) (key : κ) : Option ν :=
  (valuesAt key (published demands)).getLast?

def subscribes : Demand κ ν ρ σ → Bool
  | .subscribe .. => true
  | .publish .. | .detach _ => false

/-- A listener that comes is quiet. -/
def Quiet (keeps : σ → Prop) : Demand κ ν ρ σ → Prop
  | .subscribe _ listener => ∀ value, (listener value).Quiet keeps
  | .publish .. | .detach _ => True

/-- No leaf of a subscription is taken back. -/
def Spares (n : Nat) : Demand κ ν ρ σ → Prop
  | .detach registrations => ∀ registration ∈ registrations, registration.subscription ≠ n
  | .publish .. | .subscribe .. => True

end Demand

namespace Network

variable [DecidableEq κ]

/-- A network meets demands one after the other and comes to rest each time. -/
inductive Meets : Network κ ν ρ σ → List (Demand κ ν ρ σ) → List (Event κ ν) →
    Network κ ν ρ σ → Prop
  | nil (network : Network κ ν ρ σ) : Meets network [] [] network
  | cons {network middle last : Network κ ν ρ σ} {demand : Demand κ ν ρ σ}
      {demands : List (Demand κ ν ρ σ)} {es es' : List (Event κ ν)}
      (here : Run network [.script demand.script] es middle [])
      (later : Meets middle demands es' last) : Meets network (demand :: demands) (es ++ es') last

variable {events es es' before after : List (Event κ ν)}
variable {network next last : Network κ ν ρ σ} {keeps : σ → Prop}

/-- There is one run to the end. -/
theorem Run.unique {last' : Network κ ν ρ σ} {stack : List (Frame κ ν ρ σ)}
    (run : Run network stack es last []) (run' : Run network stack es' last' []) :
    es = es' ∧ last = last' := by
  obtain ⟨least, ends⟩ := settle_of_run run
  obtain ⟨least', ends'⟩ := settle_of_run run'
  obtain ⟨settled, watched⟩ := ends (max least least') (Nat.le_max_left _ _)
  obtain ⟨settled', watched'⟩ := ends' (max least least') (Nat.le_max_right _ _)
  exact ⟨watched.symm.trans watched', Option.some.inj (settled.symm.trans settled')⟩

namespace Meets

variable {demands demands' : List (Demand κ ν ρ σ)}

theorem append (first : Meets network demands es next) (second : Meets next demands' es' last) :
    Meets network (demands ++ demands') (es ++ es') last := by
  induction first with
  | nil => exact second
  | cons here _ ih =>
    rw [List.append_assoc]
    exact .cons here (ih second)

theorem kept (meets : Meets network demands es next) : network.Keeps next := by
  induction meets with
  | nil => exact .of_eq rfl
  | cons here _ ih => exact here.keeps.trans ih

theorem unique {last' : Network κ ν ρ σ} (meets : Meets network demands es last)
    (meets' : Meets network demands es' last') : es = es' ∧ last = last' := by
  induction meets generalizing es' with
  | nil =>
    cases meets'
    exact ⟨rfl, rfl⟩
  | cons here _ ih =>
    cases meets' with
    | cons here' later' =>
      obtain ⟨rfl, rfl⟩ := here.unique here'
      obtain ⟨rfl, rfl⟩ := ih later'
      exact ⟨rfl, rfl⟩

end Meets

/-- At rest, with quiet listeners only. -/
structure AtRest (keeps : σ → Prop) (events : List (Event κ ν)) (network : Network κ ν ρ σ) :
    Prop where
  sound : Sound events network []
  passive : Passive keeps network

/--
What there is to say when a demand has been met. A published value goes to all listeners of its
subject, and a subscription takes in nothing else.
-/
structure Met (keeps : σ → Prop) (events : List (Event κ ν)) (network : Network κ ν ρ σ)
    (demand : Demand κ ν ρ σ) (es : List (Event κ ν)) (next : Network κ ν ρ σ) : Prop where
  rest : AtRest keeps (events ++ es) next
  sends : sent es = demand.published?.toList
  number : next.subscriptions.length =
    network.subscriptions.length + [demand].countP Demand.subscribes
  spared : ∀ n, demand.Spares n → ∀ registration, .detached registration ∈ es →
    registration.subscription ≠ n
  taken : ∀ n < network.subscriptions.length, feeds n es = demand.published?.toList.flatMap
    fun pair => feedsTo n pair.2 (network.subject pair.1).listeners

namespace AtRest

theorem start {memory : σ} (holds : keeps memory) :
    AtRest keeps [] (Network.start memory : Network κ ν ρ σ) := by
  have done : Run (Network.start memory : Network κ ν ρ σ) [.script .done] [] (.start memory) [] :=
    .step rfl (.still _ _)
  exact ⟨(Sound.start memory .done).run done, nofun, holds⟩

/-- A demand can be met. -/
theorem meet (rest : AtRest keeps events network) {demand : Demand κ ν ρ σ}
    (quiet : demand.Quiet keeps) :
    ∃ es next, Run network [.script demand.script] es next [] ∧
      Met keeps events network demand es next := by
  cases demand with
  | publish key value =>
    obtain ⟨es, next, run, still, length, passive, taken⟩ :=
      rest.passive.publish value (fun _ => .done) (rest.sound.idle key) fun _ => .done
    refine ⟨_, next, run, ⟨(rest.sound.script _).run run, passive⟩, ?_, length, ?_, ?_⟩
    · simp [sent_cons, sent?, sent_still still, Demand.published?]
    · rintro n - registration member
      rcases List.mem_cons.mp member with same | member
      · cases same
      · rcases List.mem_cons.mp member with same | member
        · cases same
        · exact absurd (still _ member) id
    · rintro n -
      rw [Demand.published?, Option.toList_some, List.flatMap_singleton]
      exact taken n
  | subscribe stream listener =>
    obtain ⟨es, next, run, still, passive, length, there, taken⟩ :=
      rest.passive.subscribe stream quiet fun _ => .done
    have all_still : ∀ e ∈ .subscribed network.subscriptions.length :: es, e.Still :=
      List.forall_mem_cons.mpr ⟨trivial, still⟩
    refine ⟨_, next, run, ⟨(rest.sound.script _).run run, passive⟩, sent_still all_still, length,
      ?_, ?_⟩
    · rintro n - registration member
      exact absurd (all_still _ member) id
    · intro n old
      refine (taken n).trans ?_
      rw [if_neg (Nat.ne_of_gt old)]
      rfl
  | detach registrations =>
    have run := run_detach network registrations
    have passive : Passive keeps (network.detach registrations) := by
      refine ⟨?_, ?_⟩
      · rw [detach_subscriptions]
        exact rest.passive.quiet
      · rw [detach_memory]
        exact rest.passive.holds
    refine ⟨_, _, run, ⟨(rest.sound.script _).run run, passive⟩, ?_, ?_, ?_, ?_⟩
    · simp [sent, sent?, Demand.published?, Function.comp_def]
    · rw [detach_subscriptions]
      rfl
    · intro n spares registration member
      obtain ⟨_, there, same⟩ := List.mem_map.mp member
      injection same with same
      rw [← same]
      exact spares _ there
    · intro n _
      simp [feeds, feed?, Demand.published?, Function.comp_def]

variable {demand : Demand κ ν ρ σ} {demands : List (Demand κ ν ρ σ)}

theorem met (rest : AtRest keeps events network) (quiet : demand.Quiet keeps)
    (run : Run network [.script demand.script] es next []) :
    Met keeps events network demand es next := by
  obtain ⟨es', next', run', met⟩ := rest.meet quiet
  obtain ⟨rfl, rfl⟩ := run.unique run'
  exact met

/-- All demands can be met. -/
theorem exists_meets (rest : AtRest keeps events network)
    (quiet : ∀ demand ∈ demands, demand.Quiet keeps) :
    ∃ es next, Meets network demands es next := by
  induction demands generalizing events network with
  | nil => exact ⟨[], network, .nil network⟩
  | cons demand demands ih =>
    obtain ⟨here, quiet⟩ := List.forall_mem_cons.mp quiet
    obtain ⟨es, middle, run, met⟩ := rest.meet here
    obtain ⟨es', next, later⟩ := ih met.rest quiet
    exact ⟨_, next, .cons run later⟩

theorem meets (rest : AtRest keeps events network)
    (quiet : ∀ demand ∈ demands, demand.Quiet keeps) (meets : Meets network demands es next) :
    AtRest keeps (events ++ es) next ∧ sent es = Demand.published demands ∧
      next.subscriptions.length =
        network.subscriptions.length + demands.countP Demand.subscribes := by
  induction meets generalizing events with
  | nil =>
    rw [List.append_nil]
    exact ⟨rest, rfl, rfl⟩
  | @cons network middle last demand demands es es' run _ ih =>
    obtain ⟨here, quiet⟩ := List.forall_mem_cons.mp quiet
    have met := rest.met here run
    obtain ⟨rest', sends, number⟩ := ih met.rest quiet
    rw [List.append_assoc] at rest'
    refine ⟨rest', ?_, ?_⟩
    · rw [sent_append, met.sends, sends, Demand.published, Demand.published, List.filterMap_cons]
      cases demand.published? <;> rfl
    · rw [number, met.number, Nat.add_assoc, ← List.countP_append]
      rfl

/-- A subject has the value that was published there last. -/
theorem latest (rest : AtRest keeps events network) {published : List (κ × ν)}
    (sends : sent events = published) :
    network.latest = fun key => (valuesAt key published).getLast? := by
  funext key
  have latest : network.latest key = (departures key events).getLast? :=
    rest.sound.flowing.latest key
  rw [latest, departures, sends]

end AtRest

/-- A leaf that has been attached and not been taken back is among the listeners. -/
theorem Sound.listens {stack : List (Frame κ ν ρ σ)} (sound : Sound (before ++ after) network stack)
    {n l : Nat} (unattached : currents n l before = []) {key : κ}
    (here : network.leafAt n l = some (.subject key)) (reached : ¬network.Untouched stack n l)
    (stays : .detached ⟨key, n, l⟩ ∉ after) : (n, l) ∈ (network.subject key).listeners := by
  obtain ⟨past, current, later, split, -, -, never, -, opened⟩ := sound.attached_once here reached
  rw [sound.accounted.listening, opened, line_open_iff never]
  obtain ⟨more, -, now⟩ := split_after split unattached
  exact ⟨rfl, fun member => stays (by rw [now]; simp [member])⟩

/--
A subscription that has come to a network after some events, and no leaf of it has been taken back
since.
-/
structure Attends {α : Type} (n : Nat) (stream : Stream κ ν ρ α) (before after : List (Event κ ν))
    (network : Network κ ν ρ σ) : Prop where
  there : ∃ state listener, network.subscriptions[n]? = some ⟨stream, state, listener⟩
  unattached : ∀ l, currents n l before = []
  stays : ∀ registration, .detached registration ∈ after → registration.subscription ≠ n

namespace Attends

variable {α : Type} {n : Nat} {stream : Stream κ ν ρ α}

omit [DecidableEq κ] in
theorem leafAt (attends : Attends n stream before after network) (l : Nat) :
    network.leafAt n l = stream.leaves[l]? := by
  obtain ⟨state, listener, there⟩ := attends.there
  rw [Network.leafAt, there]
  rfl

omit [DecidableEq κ] in
theorem small (attends : Attends n stream before after network) :
    n < network.subscriptions.length := by
  obtain ⟨state, listener, there⟩ := attends.there
  exact (List.getElem?_eq_some_iff.mp there).1

/-- Each leaf at a subject is among the listeners there, and no other leaf is. -/
theorem listens_iff (attends : Attends n stream before after network)
    (sound : Sound (before ++ after) network []) (key : κ) (l : Nat) :
    (n, l) ∈ (network.subject key).listeners ↔ stream.leaves[l]? = some (.subject key) := by
  rw [← attends.leafAt l]
  refine ⟨fun listed => ?_, fun here => ?_⟩
  · exact sound.accounted.place key n l ((sound.accounted.listening key n l).mp listed)
  · exact sound.listens (attends.unattached l) here (reached_at_rest attends.small) fun member =>
      attends.stays _ member rfl

/-- A published value visits the leaves from left to right. -/
theorem feedsTo_eq (attends : Attends n stream before after network)
    (sound : Sound (before ++ after) network []) (key : κ) (value : ν) :
    feedsTo n value (network.subject key).listeners =
      Stream.entering (Stream.visit (key, value)) 0 stream.leaves := by
  let earlier (feed later : Nat × Option ν) : Prop := feed.1 < later.1
  have : Std.Antisymm earlier := ⟨fun _ _ less more => absurd less (Nat.lt_asymm more)⟩
  have : Std.Irrefl earlier := ⟨fun _ => Nat.lt_irrefl _⟩
  have ordered : (feedsTo n value (network.subject key).listeners).Pairwise earlier := by
    refine List.pairwise_map.mpr (List.Pairwise.imp_of_mem ?_
      ((sound.accounted.ordered key).filter (·.1 = n)))
    intro listener later member there order
    have here := (List.mem_filter.mp member).2
    have here' := (List.mem_filter.mp there).2
    exact order ((of_decide_eq_true here).trans (of_decide_eq_true here').symm)
  refine ordered.eq_of_mem_iff (Stream.entering_ordered _ 0 stream.leaves) ?_
  rintro ⟨l, incoming⟩
  have entered := Stream.mem_entering (Stream.visit (key, value)) 0 stream.leaves l incoming
  rw [Nat.zero_add] at entered
  rw [entered, feedsTo, List.mem_map]
  constructor
  · rintro ⟨⟨m, l'⟩, member, same⟩
    obtain ⟨listed, here⟩ := List.mem_filter.mp member
    obtain rfl := of_decide_eq_true here
    obtain ⟨rfl, rfl⟩ := Prod.mk.inj same
    rw [(attends.listens_iff sound key l').mp listed, Option.bind_some, Stream.visit, if_pos rfl]
  · intro visited
    obtain ⟨leaf, found, visits⟩ := Option.bind_eq_some_iff.mp visited
    obtain ⟨rfl, same⟩ := Option.ite_none_right_eq_some.mp visits
    obtain rfl := Option.some.inj same
    refine ⟨(n, l), List.mem_filter.mpr ⟨?_, decide_eq_true rfl⟩, rfl⟩
    exact (attends.listens_iff sound key l).mpr found

omit [DecidableEq κ] in
/-- A subscription stays if no leaf of it is taken back. -/
theorem keep (attends : Attends n stream before after network) (keeps : network.Keeps next)
    (spared : ∀ registration, .detached registration ∈ es → registration.subscription ≠ n) :
    Attends n stream before (after ++ es) next := by
  obtain ⟨state, listener, there⟩ := attends.there
  obtain ⟨state', there'⟩ := keeps n _ there
  refine ⟨⟨state', listener, there'⟩, attends.unattached, fun registration member => ?_⟩
  rcases List.mem_append.mp member with member | member
  · exact attends.stays registration member
  · exact spared registration member

variable {demands : List (Demand κ ν ρ σ)}

/-- What is published later visits the leaves, and everything else leaves them alone. -/
theorem meets (attends : Attends n stream before after network)
    (rest : AtRest keeps (before ++ after) network)
    (quiet : ∀ demand ∈ demands, demand.Quiet keeps)
    (spares : ∀ demand ∈ demands, demand.Spares n) (meets : Meets network demands es next) :
    Attends n stream before (after ++ es) next ∧
      feeds n es = (stream.visits (Demand.published demands)).flatten := by
  induction meets generalizing after with
  | nil =>
    rw [List.append_nil]
    exact ⟨attends, rfl⟩
  | @cons network middle last demand demands es es' run _ ih =>
    obtain ⟨here, quiet⟩ := List.forall_mem_cons.mp quiet
    obtain ⟨spared, spares⟩ := List.forall_mem_cons.mp spares
    have met := rest.met here run
    have attends' := attends.keep run.keeps (met.spared n spared)
    have rest' := met.rest
    rw [List.append_assoc] at rest'
    obtain ⟨attends'', taken⟩ := ih attends' rest' quiet spares
    rw [List.append_assoc] at attends''
    refine ⟨attends'', ?_⟩
    rw [feeds_append, taken, met.taken n attends.small, Demand.published, Demand.published,
      List.filterMap_cons]
    cases demand.published? with
    | none => rfl
    | some pair =>
      rw [Option.toList_some, List.flatMap_singleton, attends.feedsTo_eq rest.sound]
      rfl

end Attends

/--
What there is to say when a quiet listener has been attached: the subscription has taken in the
latest values, and the listener has been called with what the stream makes of them.
-/
structure Joined (keeps : σ → Prop) (events : List (Event κ ν)) (network : Network κ ν ρ σ)
    {α : Type} (stream : Stream κ ν ρ α) (listener : α → Script κ ν ρ σ)
    (es : List (Event κ ν)) (next : Network κ ν ρ σ) : Prop where
  rest : AtRest keeps (events ++ es) next
  still : ∀ e ∈ es, e.Still
  there : ∃ state, next.subscriptions[network.subscriptions.length]? =
    some ⟨stream, state, listener⟩
  attends : Attends network.subscriptions.length stream events es next
  taken : feeds network.subscriptions.length (events ++ es) =
    Stream.entering (Stream.opening network.latest) 0 stream.leaves
  unheard : calls network.subscriptions.length events = []
  called : calls network.subscriptions.length es =
    (stream.begins network.latest).toList.map (Sigma.mk α)

theorem AtRest.join (rest : AtRest keeps events network) {α : Type} (stream : Stream κ ν ρ α)
    {listener : α → Script κ ν ρ σ} (quiet : ∀ value, (listener value).Quiet keeps) :
    ∃ es next, Run network [.script (.subscribe stream listener fun _ => .done)] es next [] ∧
      Joined keeps events network stream listener es next := by
  obtain ⟨es, next, run, still, passive, _, ⟨state, there⟩, taken⟩ :=
    rest.passive.subscribe stream quiet fun _ => .done
  have all_still : ∀ e ∈ .subscribed network.subscriptions.length :: es, e.Still :=
    List.forall_mem_cons.mpr ⟨trivial, still⟩
  have rest' : AtRest keeps (events ++ .subscribed network.subscriptions.length :: es) next :=
    ⟨(rest.sound.script _).run run, passive⟩
  obtain ⟨feeds_before, calls_before⟩ := rest.sound.recorded.fresh _ (Nat.le_refl _)
  have feeds_es : feeds network.subscriptions.length
      (.subscribed network.subscriptions.length :: es) =
        Stream.entering (Stream.opening network.latest) 0 stream.leaves :=
    (taken _).trans (if_pos rfl)
  have calls_es := rest'.sound.recorded.calls _ _ there
  rw [feeds_append, calls_append, feeds_before, calls_before, feeds_es, List.nil_append,
    List.nil_append] at calls_es
  have opened : (stream.course
      (Stream.entering (Stream.opening network.latest) 0 stream.leaves)).2 =
        (stream.begins network.latest).toList :=
    stream.opened_values network.latest
  rw [opened] at calls_es
  refine ⟨_, next, run, rest', all_still, ⟨state, there⟩, ⟨⟨state, listener, there⟩, ?_, ?_⟩, ?_,
    calls_before, calls_es⟩
  · exact fun l => (rest.sound.opened.unreached _ l (.inl (Nat.le_refl _))).1
  · exact fun registration member => absurd (all_still _ member) id
  · rw [feeds_append, feeds_before, feeds_es, List.nil_append]

/-- What the listener is called with later is read off the stream round by round. -/
theorem Joined.calls_later {α : Type} {stream : Stream κ ν ρ α} {listener : α → Script κ ν ρ σ}
    (joined : Joined keeps events network stream listener es next) (kept : next.Keeps last)
    (rest : AtRest keeps (events ++ es ++ es') last) {published : List (κ × ν)}
    (visited : feeds network.subscriptions.length es' = (stream.visits published).flatten) :
    calls network.subscriptions.length es' =
      (stream.rounds network.latest published).flatten.map (Sigma.mk α) := by
  obtain ⟨state, there⟩ := joined.there
  obtain ⟨state', there'⟩ := kept _ _ there
  have calls_all := rest.sound.recorded.calls _ _ there'
  rw [feeds_append, joined.taken, visited, calls_append, calls_append, joined.unheard,
    joined.called, List.nil_append, Stream.course_rounds, List.map_append] at calls_all
  exact List.append_cancel_left calls_all

/--
What a subscription passes on, whatever has happened before and whatever happens later, as long as
all listeners are quiet and its own leaves are not taken back: at once the value that is read off
the stream and the latest values of its subjects, if there is one, and then round by round what is
read off the stream for each published value.
-/
theorem calls_round_by_round {memory : σ} (holds : keeps memory)
    (earlier later : List (Demand κ ν ρ σ)) {α : Type} (stream : Stream κ ν ρ α)
    {listener : α → Script κ ν ρ σ}
    (quiet : ∀ demand ∈ earlier ++ .subscribe stream listener :: later, demand.Quiet keeps)
    (spares : ∀ demand ∈ later, demand.Spares (earlier.countP Demand.subscribes)) :
    ∃ past before es attended es' last, Meets (Network.start memory) earlier past before ∧
      Run before [.script (.subscribe stream listener fun _ => .done)] es attended [] ∧
      Meets attended later es' last ∧
      calls (earlier.countP Demand.subscribes) past = [] ∧
      calls (earlier.countP Demand.subscribes) es =
        (stream.begins (Demand.latest earlier)).toList.map (Sigma.mk α) ∧
      calls (earlier.countP Demand.subscribes) es' =
        (stream.rounds (Demand.latest earlier) (Demand.published later)).flatten.map
          (Sigma.mk α) ∧
      ∀ events network,
        Meets (Network.start memory) (earlier ++ .subscribe stream listener :: later) events network →
          events = past ++ (es ++ es') ∧ network = last := by
  obtain ⟨quiet_earlier, quiet⟩ := List.forall_mem_append.mp quiet
  obtain ⟨quiet_listener, quiet_later⟩ := List.forall_mem_cons.mp quiet
  have fresh : AtRest keeps [] (Network.start memory : Network κ ν ρ σ) := .start holds
  obtain ⟨past, before, first⟩ := fresh.exists_meets quiet_earlier
  obtain ⟨rest, sends, number⟩ := fresh.meets quiet_earlier first
  rw [List.nil_append] at rest
  have latest : before.latest = Demand.latest earlier := rest.latest sends
  have number' : earlier.countP Demand.subscribes = before.subscriptions.length := by
    rw [number]
    exact (Nat.zero_add _).symm
  rw [number'] at spares ⊢
  obtain ⟨es, attended, run, joined⟩ := rest.join stream quiet_listener
  obtain ⟨es', last, second⟩ := joined.rest.exists_meets quiet_later
  obtain ⟨rest', _⟩ := joined.rest.meets quiet_later second
  obtain ⟨_, taken⟩ := joined.attends.meets joined.rest quiet_later spares second
  have calls_es := joined.called
  have calls_es' := joined.calls_later second.kept rest' taken
  rw [latest] at calls_es calls_es'
  refine ⟨past, before, _, attended, es', last, first, run, second, joined.unheard, calls_es,
    calls_es', fun events network meets => ?_⟩
  exact meets.unique (first.append (.cons run second))

/-- A stream that listens to one subject on both sides. -/
def twoSided : Stream Nat Nat Empty (Nat × Nat) :=
  .pair (.subject 0) (.distinct inferInstance (.subject 0))

def twoSubscribers : List (Demand Nat Nat Empty Unit) :=
  [.publish 0 5, .subscribe twoSided fun _ => .done, .publish 0 6,
    .subscribe twoSided fun _ => .done, .publish 0 6, .publish 1 9]

/-- Both subscribe to the same stream, and each hears what there is to hear since it has come. -/
theorem twoSubscribers_calls : ∃ events network,
    Meets (Network.start ()) twoSubscribers events network ∧
      calls 0 events =
        ([(5, 5), (6, 5), (6, 6), (6, 6)] : List (Nat × Nat)).map (Sigma.mk (Nat × Nat)) ∧
      calls 1 events = ([(6, 6), (6, 6)] : List (Nat × Nat)).map (Sigma.mk (Nat × Nat)) := by
  have quiet : ∀ demand ∈ twoSubscribers, demand.Quiet fun _ => True := by
    simp [twoSubscribers, Demand.Quiet, Script.Quiet.done]
  obtain ⟨past, _, es, _, es', _, _, _, _, none_yet, at_once, later, unique⟩ :=
    calls_round_by_round trivial [.publish 0 5]
      [.publish 0 6, .subscribe twoSided fun _ => .done, .publish 0 6, .publish 1 9] twoSided quiet
      (by simp [Demand.Spares])
  obtain ⟨past', _, fs, _, fs', last, first, run, second, none_yet', at_once', later', unique'⟩ :=
    calls_round_by_round trivial [.publish 0 5, .subscribe twoSided fun _ => .done, .publish 0 6]
      [.publish 0 6, .publish 1 9] twoSided quiet (by simp [Demand.Spares])
  have meets : Meets (Network.start ()) twoSubscribers (past' ++ (fs ++ fs')) last :=
    first.append (.cons run second)
  refine ⟨_, last, meets, ?_, ?_⟩
  · rw [(unique _ _ meets).1, calls_append, calls_append]
    refine (congrArg₂ _ none_yet (congrArg₂ _ at_once later)).trans ?_
    rfl
  · rw [calls_append, calls_append]
    refine (congrArg₂ _ none_yet' (congrArg₂ _ at_once' later')).trans ?_
    rfl

end Network

end Switchboard
