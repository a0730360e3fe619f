import Switchboard.Proofs.Engine.Guest
import Switchboard.Proofs.Network.Absence
import Switchboard.Proofs.Stream.Handles

/-!
# Rules at work among guests

The rules of an engine are started one after the other, and so their
subscriptions have numbers in a row. Every other subscription is a guest's, or
that of a rule that has been stopped, which is never woken again.

A ledger is what is kept account of: it goes by what has happened since it was
opened and by what is seen at the plant. Nothing has to be entered but the
actions that are fired. So a ledger that is right when a run begins is right
at every moment of it, if that is read as what can be foreseen there.
-/
namespace Switchboard

open Event Network

variable {ς : Type}

/-- Rules at work, each as what it knows of itself when it fires and as it is listed. -/
abbrev Crew := List (Drive × ActiveRule)

/-- The listener of a rule. -/
def Subscription.Fires (sink : Sink ς) (s : Subscription Line Json Entry (Plant ς)) : Prop :=
  ∃ (stream : BusStream Action) (state : stream.State) (drive : Drive),
    s = ⟨stream, state, drive.fire sink⟩

/-- What is seen of a plant: what belongs to the rules, with deliveries and rule logs. -/
abbrev Sight (ς : Type) : Type := Holdings ς × List Entry

/-- An account of rules, of what has happened since it was opened, and of what is seen now. -/
abbrev Reckoning (ς : Type) : Type 1 := Crew → List (Event Line Json) → Sight ς → Prop

/-- What a ledger stands for stays right whatever happens, whether a rule fires or not. -/
structure Ledger (sink : Sink ς) (base : Nat) (right : Reckoning ς) : Prop where
  aside : ∀ {crew es now e}, (∀ i value, i < crew.length → e ≠ .called (base + i) value) →
    right crew es now → right crew (es ++ [e]) now
  fires : ∀ {crew es i drive rule action} {plant : Plant ς} {told},
    crew[i]? = some (drive, rule) → drive.rule = i → right crew es (plant.holdings, told) →
      right crew (es ++ [.called (base + i) ⟨Action, action⟩])
        (((drive.fire sink action).outcome plant).holdings,
          told ++ (drive.fire sink action).told Entry.kept? plant)

/--
A ledger that also stays right when a rule joins, when something else is shown, and when the sink
is changed from outside as `changes` allows. It knows how many rules there are.
-/
structure Bookkeeping (sink : Sink ς) (changes : ς → ς → Prop) (base : Nat) (right : Reckoning ς) :
    Prop extends Ledger sink base right where
  counts : ∀ {crew es} {now : Sight ς}, right crew es now → now.1.tallies.length = crew.length
  joins : ∀ {crew es drive rule told} {now : Holdings ς}, drive.rule = crew.length →
    calls (base + crew.length) es = [] → right crew es (now, told) →
      right (crew ++ [(drive, rule)]) es ({ now with tallies := now.tallies ++ [.zero] }, told)
  shows : ∀ {crew es} {now now' : Sight ς}, now'.1.tallies = now.1.tallies →
    now'.1.sink = now.1.sink → now'.2.filterMap Entry.ruleLine? = now.2.filterMap Entry.ruleLine? →
      right crew es now → right crew es now'
  adjusts : ∀ {crew es told remembered} {now : Holdings ς}, changes now.sink remembered →
    right crew es (now, told) → right crew es ({ now with sink := remembered }, told)

theorem Ledger.asides {sink : Sink ς} {base : Nat} {right : Reckoning ς}
    (ledger : Ledger sink base right) {crew : Crew} {es more : List (Event Line Json)}
    {now : Sight ς}
    (calm : ∀ e ∈ more, ∀ i value, i < crew.length → e ≠ .called (base + i) value)
    (holds : right crew es now) : right crew (es ++ more) now := by
  induction more generalizing es with
  | nil => rwa [List.append_nil]
  | cons e more ih =>
    obtain ⟨here, later⟩ := List.forall_mem_cons.mp calm
    rw [← List.singleton_append, ← List.append_assoc]
    exact ih later (ledger.aside here holds)

/-- The number of tallies is that of the rules at work. -/
def Numbered : Reckoning ς := fun crew _ now => now.1.tallies.length = crew.length

theorem numbered (sink : Sink ς) (base : Nat) :
    Bookkeeping sink (fun _ _ => True) base Numbered where
  aside _ numbered := numbered
  counts numbered := numbered
  fires {_ _ _ drive _ action plant _} _ _ numbered := by
    rw [Numbered, Plant.holdings, (drive.outcome_fire sink action plant).2, List.length_modify]
    exact numbered
  joins _ _ numbered := by simpa [Numbered] using numbered
  shows tallies _ _ numbered := by rwa [Numbered, tallies]
  adjusts _ numbered := numbered

/--
Rules at work in a network: `past` has happened before the ledger was opened, and `es` since then.
-/
structure Staffed (sink : Sink ς) (right : Reckoning ς) (base : Nat) (crew : Crew)
    (past es : List (Event Line Json)) (network : PlantNetwork ς)
    (stack : List (Frame Line Json Entry (Plant ς))) : Prop where
  sound : Sound (past ++ es) network stack
  orderly : Orderly Plant.holdings Entry.kept? network stack
  room : base + crew.length ≤ network.subscriptions.length
  members : ∀ i drive rule, crew[i]? = some (drive, rule) → drive.rule = i ∧
    ∃ (stream : BusStream Action) (state : stream.State),
      network.subscriptions[base + i]? = some ⟨stream, state, drive.fire sink⟩ ∧
        rule.handle = stream.handle (base + i)
  others : ∀ n s, network.subscriptions[n]? = some s → n < base ∨ base + crew.length ≤ n →
    (∀ a, PlantScript.Guest (s.listener a)) ∨ Absent n network stack ∧ s.Fires sink
  holds : right crew es (network.foreseen Plant.holdings Entry.kept? stack)

namespace Staffed

variable {sink : Sink ς} {base : Nat} {right : Reckoning ς} {crew : Crew}
variable {past es more : List (Event Line Json)} {network next last : PlantNetwork ς}
variable {stack final : List (Frame Line Json Entry (Plant ς))}

/-- Whose a subscription is: that of a rule at work, a guest's, or that of a rule that is absent. -/
theorem whose (staffed : Staffed sink right base crew past es network stack) {n : Nat}
    {s : Subscription Line Json Entry (Plant ς)} (there : network.subscriptions[n]? = some s) :
    (∃ i drive rule, n = base + i ∧ crew[i]? = some (drive, rule) ∧ drive.rule = i ∧
      ∃ (stream : BusStream Action) (state : stream.State), s = ⟨stream, state, drive.fire sink⟩) ∨
    (∀ i < crew.length, n ≠ base + i) ∧
      ((∀ a, PlantScript.Guest (s.listener a)) ∨ Absent n network stack ∧ s.Fires sink) := by
  by_cases inside : base ≤ n ∧ n < base + crew.length
  · obtain ⟨i, rfl⟩ := Nat.exists_eq_add_of_le inside.1
    obtain ⟨⟨drive, rule⟩, here⟩ : ∃ hand, crew[i]? = some hand :=
      ⟨_, List.getElem?_eq_getElem (by omega)⟩
    obtain ⟨place, stream, state, there', _⟩ := staffed.members i drive rule here
    exact .inl ⟨i, drive, rule, rfl, here, place, stream, state,
      Option.some.inj (there.symm.trans there')⟩
  · exact .inr ⟨fun i small => by omega, staffed.others n s there (by omega)⟩

/-- Whatever happens, the ledger stays right, as long as nobody is called who is absent. -/
theorem upholds (staffed : Staffed sink right base crew past es network stack)
    (ledger : Ledger sink base right) :
    Upholds Plant.holdings Entry.kept?
      (fun more now => (∀ n, Absent n network stack → calls n more = []) →
        right crew (es ++ more) now) network := by
  have earlier {more : List (Event Line Json)} {e : Event Line Json}
      (uncalled : ∀ n, Absent n network stack → calls n (more ++ [e]) = []) :
      ∀ n, Absent n network stack → calls n more = [] := fun n absent =>
    (List.append_eq_nil_iff.mp ((calls_append n more [e]).symm.trans (uncalled n absent))).1
  refine ⟨fun {more e now} calm holds uncalled => ?_, fun {more n s a plant told} there holds
    uncalled => ?_⟩
  · rw [← List.append_assoc]
    exact ledger.aside (fun i value _ => calm _ value) (holds (earlier uncalled))
  · have before := holds (earlier uncalled)
    rw [← List.append_assoc]
    rcases staffed.whose there with ⟨i, drive, rule, rfl, here, place, stream, state, rfl⟩ |
      ⟨other, guest | ⟨absent, _⟩⟩
    · exact ledger.fires here place before
    · rw [(guest a).plain.outcome, (guest a).plain.told, List.append_nil]
      refine ledger.aside (fun i value small same => ?_) before
      exact other i small (Event.called.inj same).1
    · have called := uncalled n absent
      simp [calls, call?] at called

/-- A run leaves every rule at its place, and the ledger right. -/
theorem run (staffed : Staffed sink right base crew past es network stack)
    (ledger : Ledger sink base right) (run : Run network stack more last final) :
    Staffed sink right base crew past (es ++ more) last final := by
  have length := (staffed.orderly.tame.run run).2
  have begins : (∀ n, Absent n network stack → calls n ([] : List (Event Line Json)) = []) →
      right crew (es ++ []) (network.foreseen Plant.holdings Entry.kept? stack) := fun _ => by
    rw [List.append_nil]
    exact staffed.holds
  obtain ⟨orderly, right⟩ := staffed.orderly.run (staffed.upholds ledger) run begins
  refine ⟨?_, orderly, by rw [length]; exact staffed.room, fun i drive rule here => ?_,
    fun n s there outside => ?_, right fun n absent => (absent.run run).2⟩
  · rw [← List.append_assoc]
    exact staffed.sound.run run
  · obtain ⟨place, stream, state, there, handle⟩ := staffed.members i drive rule here
    obtain ⟨state', there'⟩ := run.keeps _ _ there
    exact ⟨place, stream, state', there', handle⟩
  · obtain ⟨old, state, before, rfl⟩ := run.keeps.back length there
    rcases staffed.others n old before outside with guest | ⟨absent, stream, state', drive, rfl⟩
    · exact .inl guest
    · exact .inr ⟨(absent.run run).1, stream, state, drive, rfl⟩

/-- Another ledger is opened: what has happened is past. -/
theorem reopen (staffed : Staffed sink right base crew past es network stack)
    {right' : Reckoning ς}
    (holds : right' crew [] (network.foreseen Plant.holdings Entry.kept? stack)) :
    Staffed sink right' base crew (past ++ es) [] network stack :=
  { staffed with sound := by rw [List.append_nil]; exact staffed.sound, holds := holds }

/-- Where there are no rules at work, the next one may come last. -/
theorem vacant (staffed : Staffed sink right base [] past es network stack) :
    Staffed sink right network.subscriptions.length [] past es network stack :=
  { staffed with
    room := le_rfl
    members := fun _ _ _ here => by simp at here
    others := fun n s there _ => staffed.others n s there (Nat.lt_or_ge n base) }

/-- Where no rule at work is called, nothing changes of what belongs to rules. -/
theorem unmoved_of_uncalled (staffed : Staffed sink right base crew past es network stack)
    (run : Run network stack more last final)
    (uncalled : ∀ i < crew.length, calls (base + i) more = []) :
    last.foreseen Plant.holdings Entry.kept? final =
      network.foreseen Plant.holdings Entry.kept? stack := by
  have earlier {n : Nat} {es : List (Event Line Json)} {e : Event Line Json}
      (nothing : calls n (es ++ [e]) = []) : calls n es = [] :=
    (List.append_eq_nil_iff.mp ((calls_append n es [e]).symm.trans nothing)).1
  have ledger : Ledger sink base fun crew es now =>
      (∀ i < crew.length, calls (base + i) es = []) →
        now = network.foreseen Plant.holdings Entry.kept? stack := by
    refine ⟨fun _ same nothing => same fun i small => earlier (nothing i small),
      fun {crew es i drive rule action plant told} here _ _ nothing => ?_⟩
    have called := nothing i (List.getElem?_eq_some_iff.mp here).1
    simp [calls, call?] at called
  exact ((staffed.reopen fun _ => rfl).run ledger run).holds uncalled

/-- Where no rules are at work, nothing changes of what belongs to rules. -/
theorem unmoved (staffed : Staffed sink right base [] past es network stack)
    (run : Run network stack more last final) :
    last.foreseen Plant.holdings Entry.kept? final =
      network.foreseen Plant.holdings Entry.kept? stack :=
  staffed.unmoved_of_uncalled run fun _ small => nomatch small

section AtRest

/-- What nobody hears of changes nothing but the account. -/
theorem alike (staffed : Staffed sink right base crew past es network [])
    (alike : network.Alike next) {right' : Reckoning ς}
    (holds : right' crew es (next.seen Plant.holdings Entry.kept?)) :
    Staffed sink right' base crew past es next [] where
  sound := staffed.sound.congr alike.subjects alike.subscriptions
  orderly := staffed.orderly.alike alike.subscriptions
  room := by rw [alike.subscriptions]; exact staffed.room
  members := by rw [alike.subscriptions]; exact staffed.members
  others n s there outside := by
    rw [alike.subscriptions] at there
    exact (staffed.others n s there outside).imp_right (And.imp_left fun absent =>
      absent.alike alike.subjects alike.subscriptions)
  holds := holds

/-- A script begins that has done its part when it publishes. -/
theorem begins (staffed : Staffed sink right base crew past es network []) {script : PlantScript ς}
    (brisk : script.Brisk Plant.holdings Entry.kept?)
    (holds : right crew es (network.foreseen Plant.holdings Entry.kept? [.script script])) :
    Staffed sink right base crew past es network [.script script] where
  sound := staffed.sound.script script
  orderly := staffed.orderly.begins brisk
  room := staffed.room
  members := staffed.members
  others n s there outside :=
    (staffed.others n s there outside).imp_right (And.imp_left fun absent => absent.begins script)
  holds := holds

/-- A guest begins. -/
theorem admits (staffed : Staffed sink right base crew past es network []) {script : PlantScript ς}
    (guest : script.Guest) : Staffed sink right base crew past es network [.script script] :=
  staffed.begins guest.plain.brisk (by rw [foreseen_plain guest.plain]; exact staffed.holds)

/-- Registrations are taken back. -/
theorem detach (staffed : Staffed sink right base crew past es network [])
    (ledger : Ledger sink base right) (registrations : List (Registration Line)) :
    Staffed sink right base crew past (es ++ registrations.map .detached)
      (network.detach registrations) [] where
  sound := by
    rw [← List.append_assoc]
    exact (staffed.sound.script _).run (run_detach network registrations)
  orderly := staffed.orderly.alike (network.detach_subscriptions registrations)
  room := by rw [detach_subscriptions]; exact staffed.room
  members := by rw [detach_subscriptions]; exact staffed.members
  others n s there outside := by
    rw [detach_subscriptions] at there
    exact (staffed.others n s there outside).imp_right (And.imp_left fun absent =>
      absent.detach registrations)
  holds := by
    refine ledger.asides (fun e member i value _ => ?_) ?_
    · obtain ⟨registration, _, rfl⟩ := List.mem_map.mp member
      exact nofun
    · show right crew es (seen _ _ (network.detach registrations))
      rw [seen, detach_memory, journal_detach]
      exact staffed.holds

/-- A guest comes to stay. -/
theorem welcomes (staffed : Staffed sink right base crew past es network [])
    (ledger : Ledger sink base right) {α : Type} {stream : BusStream α}
    {listener : α → PlantScript ς} (discreet : stream.Discreet Entry.kept?)
    (guest : ∀ a, (listener a).Guest) : Staffed sink right base crew past
      (es ++ [.subscribed network.subscriptions.length]) (network.enlisted stream listener)
      [.opening network.subscriptions.length 0 stream.leaves .done] where
  sound := by
    rw [← List.append_assoc]
    exact (staffed.sound.script _).run (run_enlisted network stream listener fun _ => .done)
  orderly := staffed.orderly.enlist (fun a => (guest a).plain.brisk) discreet .done _ _ _
  room := by
    rw [enlisted, List.length_append]
    exact Nat.le_add_right_of_le staffed.room
  members i drive rule here := by
    obtain ⟨place, stream', state, there, handle⟩ := staffed.members i drive rule here
    exact ⟨place, stream', state, getElem?_enlisted there, handle⟩
  others n s there outside := by
    rcases enlisted_cases there with before | ⟨rfl, rfl⟩
    · exact (staffed.others n s before outside).imp_right (And.imp_left fun absent =>
        absent.enlist stream listener 0 _ _)
    · exact .inl guest
  holds := ledger.aside (by simp) staffed.holds

/-- A rule is started: the last one in a row. -/
theorem hires {some_right : Reckoning ς}
    (staffed : Staffed sink some_right base crew past es network [])
    (ledger : Ledger sink base right)
    (full : base + crew.length = network.subscriptions.length) {drive : Drive} {rule : ActiveRule}
    (place : drive.rule = crew.length) {stream : BusStream Action}
    (discreet : stream.Discreet Entry.kept?)
    (handle : rule.handle = stream.handle network.subscriptions.length)
    (holds : right (crew ++ [(drive, rule)]) es (network.seen Plant.holdings Entry.kept?)) :
    Staffed sink right base (crew ++ [(drive, rule)]) past
      (es ++ [.subscribed network.subscriptions.length])
      (network.enlisted stream (drive.fire sink))
      [.opening network.subscriptions.length 0 stream.leaves .done] where
  sound := by
    rw [← List.append_assoc]
    exact (staffed.sound.script _).run (run_enlisted network stream _ fun _ => .done)
  orderly := staffed.orderly.enlist (drive.brisk_fire sink) discreet .done _ _ _
  room := by
    rw [enlisted, List.length_append, List.length_append, ← full]
    rfl
  members i drive' rule' here := by
    rcases getElem?_snoc_cases here with before | ⟨rfl, same⟩
    · obtain ⟨place', stream', state, there, handle'⟩ := staffed.members i drive' rule' before
      exact ⟨place', stream', state, getElem?_enlisted there, handle'⟩
    · obtain ⟨rfl, rfl⟩ := Prod.mk.inj same
      rw [full]
      exact ⟨place, stream, stream.initial, List.getElem?_concat_length, handle⟩
  others n s there outside := by
    rw [List.length_append, List.length_singleton, ← Nat.add_assoc] at outside
    rcases enlisted_cases there with before | ⟨rfl, rfl⟩
    · exact (staffed.others n s before (by omega)).imp_right (And.imp_left fun absent =>
        absent.enlist stream _ 0 _ _)
    · omega
  holds := ledger.aside (by simp) holds

/-- Rules that are attached nowhere any more are not at work. -/
theorem dismissed (staffed : Staffed sink right base crew past es network [])
    (unlisted : ∀ i, i < crew.length → ∀ key leaf,
      (base + i, leaf) ∉ (network.subject key).listeners) :
    Staffed sink (fun _ _ _ => True) network.subscriptions.length [] past es network [] where
  sound := staffed.sound
  orderly := staffed.orderly
  room := le_rfl
  members _ _ _ here := by simp at here
  others n s there _ := by
    rcases staffed.whose there with ⟨i, drive, rule, rfl, here, _, stream, state, rfl⟩ | ⟨_, other⟩
    · have small := (List.getElem?_eq_some_iff.mp here).1
      refine .inr ⟨⟨(List.getElem?_eq_some_iff.mp there).1, unlisted i small, nofun⟩, ?_⟩
      exact ⟨stream, state, drive, rfl⟩
    · exact other
  holds := trivial

/-- A listener of a rule stands for one of the registrations that its handle keeps. -/
theorem registered (staffed : Staffed sink right base crew past es network [])
    {i leaf : Nat} {key : Line} {drive : Drive} {rule : ActiveRule}
    (here : crew[i]? = some (drive, rule))
    (listed : (base + i, leaf) ∈ (network.subject key).listeners) :
    ⟨key, base + i, leaf⟩ ∈ rule.handle.released := by
  obtain ⟨_, stream, state, there, handle⟩ := staffed.members i drive rule here
  have placed := staffed.sound.accounted.place key _ _
    ((staffed.sound.accounted.listening key _ _).mp listed)
  have leaf_there : stream.leaves[leaf]? = some (.subject key) := by
    simpa [leafAt, there] using placed
  have kept : ⟨key, base + i, leaf⟩ ∈ (stream.handle (base + i)).registrations :=
    mem_handle.mpr ⟨rfl, leaf_there⟩
  rw [handle]
  exact kept

end AtRest

end Staffed

end Switchboard
