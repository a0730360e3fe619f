import Mathlib.Data.List.Forall2
import Switchboard.Proofs.Network.Reaching

/-!
# Similar networks

Two networks are similar if they do the same, apart from journal entries that
nobody reads, and from what memories hold that are alike. One may put down an
entry where the other puts down none, or put it down earlier or later. A run
of one network is then matched by a run of the other, which takes more steps
or fewer, and in the end the two are similar again.
-/
namespace Switchboard

variable {κ ν ρ σ τ δ : Type}

/--
Scripts that do the same to memories that are alike; entries of which `read` makes nothing may stand
in one of them only.
-/
inductive Script.Similar (alike : σ → τ → Prop) (read : ρ → Option δ) :
    Script κ ν ρ σ → Script κ ν ρ τ → Prop where
  | done : Similar alike read .done .done
  | left {entry : ρ} {next : Script κ ν ρ σ} {next' : Script κ ν ρ τ} (unread : read entry = none)
      (h : Similar alike read next next') : Similar alike read (.record entry next) next'
  | right {entry : ρ} {next : Script κ ν ρ σ} {next' : Script κ ν ρ τ} (unread : read entry = none)
      (h : Similar alike read next next') : Similar alike read next (.record entry next')
  | record {entry : ρ} {next : Script κ ν ρ σ} {next' : Script κ ν ρ τ}
      (h : Similar alike read next next') :
      Similar alike read (.record entry next) (.record entry next')
  | change {f : σ → σ} {g : τ → τ} {next : Script κ ν ρ σ} {next' : Script κ ν ρ τ}
      (stays : ∀ memory memory', alike memory memory' → alike (f memory) (g memory'))
      (h : Similar alike read next next') : Similar alike read (.change f next) (.change g next')
  | consult {next : σ → Script κ ν ρ σ} {next' : τ → Script κ ν ρ τ}
      (h : ∀ memory memory', alike memory memory' →
        Similar alike read (next memory) (next' memory')) :
      Similar alike read (.consult next) (.consult next')
  | publish {key : κ} {value : ν} {next : Nat → Script κ ν ρ σ} {next' : Nat → Script κ ν ρ τ}
      (h : ∀ n, Similar alike read (next n) (next' n)) :
      Similar alike read (.publish key value next) (.publish key value next')
  | subscribe {α : Type} {stream : Stream κ ν ρ α} {listener : α → Script κ ν ρ σ}
      {listener' : α → Script κ ν ρ τ} {next : Handle κ → Script κ ν ρ σ}
      {next' : Handle κ → Script κ ν ρ τ}
      (heard : ∀ a, Similar alike read (listener a) (listener' a))
      (h : ∀ handle, Similar alike read (next handle) (next' handle)) :
      Similar alike read (.subscribe stream listener next) (.subscribe stream listener' next')

theorem Script.Similar.symm {alike : σ → τ → Prop} {read : ρ → Option δ}
    {script : Script κ ν ρ σ} {script' : Script κ ν ρ τ}
    (similar : script.Similar alike read script') : script'.Similar (flip alike) read script := by
  induction similar with
  | done => exact .done
  | left unread _ ih => exact .right unread ih
  | right unread _ ih => exact .left unread ih
  | record _ ih => exact .record ih
  | change stays _ ih => exact .change (fun memory memory' => stays memory' memory) ih
  | consult _ ih => exact .consult fun memory memory' => ih memory' memory
  | publish _ ih => exact .publish ih
  | subscribe _ _ heard ih => exact .subscribe heard ih

/-- Similar business. -/
inductive Frame.Similar (alike : σ → τ → Prop) (read : ρ → Option δ) :
    Frame κ ν ρ σ → Frame κ ν ρ τ → Prop where
  | script {script : Script κ ν ρ σ} {script' : Script κ ν ρ τ}
      (h : script.Similar alike read script') :
      Similar alike read (.script script) (.script script')
  | fanOut (key : κ) (value : ν) (waiting : List (Nat × Nat)) (audience : Nat)
      {next : Nat → Script κ ν ρ σ} {next' : Nat → Script κ ν ρ τ}
      (h : ∀ n, (next n).Similar alike read (next' n)) :
      Similar alike read (.fanOut key value waiting audience next)
        (.fanOut key value waiting audience next')
  | opening (n leaf : Nat) (leaves : List (Leaf κ)) {next : Script κ ν ρ σ} {next' : Script κ ν ρ τ}
      (h : next.Similar alike read next') :
      Similar alike read (.opening n leaf leaves next) (.opening n leaf leaves next')

/-- Subscriptions to the same stream, in the same state, with similar listeners. -/
inductive Subscription.Similar (alike : σ → τ → Prop) (read : ρ → Option δ) :
    Subscription κ ν ρ σ → Subscription κ ν ρ τ → Prop where
  | mk {α : Type} {stream : Stream κ ν ρ α} (state : stream.State) {listener : α → Script κ ν ρ σ}
      {listener' : α → Script κ ν ρ τ} (h : ∀ a, (listener a).Similar alike read (listener' a)) :
      Similar alike read ⟨stream, state, listener⟩ ⟨stream, state, listener'⟩

/-- What is related one by one stays so when both lists change in the same place. -/
theorem related_set {α β : Type*} {related : α → β → Prop} {xs : List α} {ys : List β}
    (all : List.Forall₂ related xs ys) (n : Nat) {x : α} {y : β} (here : related x y) :
    List.Forall₂ related (xs.set n x) (ys.set n y) := by
  induction all generalizing n with
  | nil => exact .nil
  | cons first rest ih =>
    cases n with
    | zero => exact .cons here rest
    | succ n => exact .cons first (ih n)

namespace Network

/-- Networks that do the same. -/
structure Similar (alike : σ → τ → Prop) (read : ρ → Option δ) (network : Network κ ν ρ σ)
    (network' : Network κ ν ρ τ) : Prop where
  subjects : network.subjects = network'.subjects
  subscriptions : List.Forall₂ (Subscription.Similar alike read) network.subscriptions
    network'.subscriptions
  journal : network.journal.filterMap read = network'.journal.filterMap read
  memory : alike network.memory network'.memory

variable {alike : σ → τ → Prop} {read : ρ → Option δ}
variable {network next : Network κ ν ρ σ} {network' : Network κ ν ρ τ}
variable {frames : List (Frame κ ν ρ σ)}

namespace Similar

theorem symm (similar : network.Similar alike read network') :
    network'.Similar (flip alike) read network where
  subjects := similar.subjects.symm
  subscriptions := similar.subscriptions.flip.imp fun _ _ same => by
    obtain ⟨state, heard⟩ := same
    exact .mk state fun a => (heard a).symm
  journal := similar.journal.symm
  memory := similar.memory

theorem write_left (similar : network.Similar alike read network') {entries : List ρ}
    (unread : ∀ entry ∈ entries, read entry = none) :
    (network.write entries).Similar alike read network' where
  subjects := similar.subjects
  subscriptions := similar.subscriptions
  journal := by
    have nothing : entries.reverse.filterMap read = [] :=
      List.filterMap_eq_nil_iff.mpr fun entry member => unread entry (List.mem_reverse.mp member)
    rw [write, List.filterMap_append, nothing, List.nil_append, similar.journal]
  memory := similar.memory

theorem write_right (similar : network.Similar alike read network') {entries : List ρ}
    (unread : ∀ entry ∈ entries, read entry = none) :
    network.Similar alike read (network'.write entries) :=
  (similar.symm.write_left unread).symm

theorem write_both (similar : network.Similar alike read network') (entries : List ρ) :
    (network.write entries).Similar alike read (network'.write entries) where
  subjects := similar.subjects
  subscriptions := similar.subscriptions
  journal := by rw [write, write, List.filterMap_append, List.filterMap_append, similar.journal]
  memory := similar.memory

/-- A value that is let in does the same in both. -/
theorem feed (similar : network.Similar alike read network') (n leaf : Nat) (incoming : Option ν) :
    (network.feed n leaf incoming).1.Similar alike read (network'.feed n leaf incoming).1 ∧
      List.Forall₂ (Frame.Similar alike read) (network.feed n leaf incoming).2
        (network'.feed n leaf incoming).2 := by
  have same_length := similar.subscriptions.length_eq
  unfold Network.feed
  by_cases small : n < network.subscriptions.length
  · have small' : n < network'.subscriptions.length := by omega
    have both := (List.forall₂_iff_get.mp similar.subscriptions).2 n small small'
    rw [List.getElem?_eq_getElem small, List.getElem?_eq_getElem small']
    rw [List.get_eq_getElem, List.get_eq_getElem] at both
    generalize network.subscriptions[n] = s at both ⊢
    generalize network'.subscriptions[n] = s' at both ⊢
    obtain ⟨state, heard⟩ := both
    rename_i α stream listener listener'
    cases pushed : stream.push state leaf incoming with
    | error beyond =>
      simp only [pushed]
      exact ⟨similar, .nil⟩
    | ok after =>
      simp only [pushed]
      refine ⟨⟨similar.subjects, ?_, ?_, similar.memory⟩, ?_⟩
      · exact related_set similar.subscriptions n (.mk after.state heard)
      · rw [List.filterMap_append, List.filterMap_append, similar.journal]
      · cases after.value with
        | none => exact .nil
        | some a => exact .cons (.script (heard a)) .nil
  · rw [List.getElem?_eq_none (by omega), List.getElem?_eq_none (by omega)]
    exact ⟨similar, .nil⟩

variable [DecidableEq κ]

theorem subject (similar : network.Similar alike read network') (key : κ) :
    network.subject key = network'.subject key := by
  rw [Network.subject, Network.subject, similar.subjects]

theorem setSubject (similar : network.Similar alike read network') (key : κ) (subject : Subject ν) :
    (network.setSubject key subject).Similar alike read (network'.setSubject key subject) where
  subjects := by
    show setEntry key subject network.subjects = setEntry key subject network'.subjects
    rw [similar.subjects]
  subscriptions := similar.subscriptions
  journal := similar.journal
  memory := similar.memory

theorem setOut (similar : network.Similar alike read network') (key : κ) (value : ν)
    (queue : List ν) :
    (network.setOut key value queue).Similar alike read (network'.setOut key value queue) := by
  rw [Network.setOut, Network.setOut, ← similar.subject key]
  exact similar.setSubject key _

theorem attach (similar : network.Similar alike read network') (key : κ) (n leaf : Nat) :
    (network.attach key n leaf).Similar alike read (network'.attach key n leaf) := by
  rw [Network.attach, Network.attach, ← similar.subject key]
  exact similar.setSubject key _

/--
What a script does in a step is matched by what a similar script does. The induction is on the
likeness of the scripts, since entries of the other one may have to be put down first.
-/
theorem stepScript {script : Script κ ν ρ σ} {script' : Script κ ν ρ τ}
    (same : script.Similar alike read script') (similar : network.Similar alike read network')
    (moves : network.step [.script script] = (next, frames)) :
    ∃ next' frames', network'.Reaches [.script script'] next' frames' ∧
      next.Similar alike read next' ∧ List.Forall₂ (Frame.Similar alike read) frames frames' := by
  induction same generalizing network' with
  | done =>
    obtain ⟨rfl, rfl⟩ := Prod.mk.inj moves
    exact ⟨network', _, .of_step rfl, similar, .nil⟩
  | left unread h _ =>
    obtain ⟨rfl, rfl⟩ := Prod.mk.inj moves
    refine ⟨network', _, .refl _ _, similar.write_left ?_, .cons (.script h) .nil⟩
    exact List.forall_mem_singleton.mpr unread
  | right unread _ ih =>
    have written := similar.write_right (List.forall_mem_singleton.mpr unread)
    obtain ⟨last, final, reaches, similar', finals⟩ := ih written moves
    exact ⟨last, final, .trans (.of_step rfl) reaches, similar', finals⟩
  | record h _ =>
    obtain ⟨rfl, rfl⟩ := Prod.mk.inj moves
    exact ⟨_, _, .of_step rfl, similar.write_both _, .cons (.script h) .nil⟩
  | change stays h _ =>
    obtain ⟨rfl, rfl⟩ := Prod.mk.inj moves
    exact ⟨_, _, .of_step rfl, ⟨similar.subjects, similar.subscriptions, similar.journal,
      stays _ _ similar.memory⟩, .cons (.script h) .nil⟩
  | consult h _ =>
    obtain ⟨rfl, rfl⟩ := Prod.mk.inj moves
    exact ⟨_, _, .of_step rfl, similar, .cons (.script (h _ _ similar.memory)) .nil⟩
  | @publish key value go go' h _ =>
    have same_subject := similar.subject key
    rw [Network.step, Network.stepScript] at moves
    cases busy : (network.subject key).busy with
    | true =>
      rw [if_pos busy] at moves
      obtain ⟨rfl, rfl⟩ := Prod.mk.inj moves
      refine ⟨_, _, .queued (same_subject ▸ busy), ?_, .cons (.script ?_) .nil⟩
      · rw [← same_subject]
        exact similar.setSubject key _
      · rw [← same_subject]
        exact h _
    | false =>
      rw [if_neg (Bool.eq_false_iff.mp busy)] at moves
      obtain ⟨rfl, rfl⟩ := Prod.mk.inj moves
      refine ⟨_, _, .begun (same_subject ▸ busy), similar.setOut key value [], ?_⟩
      rw [← same_subject]
      exact .cons (.fanOut _ _ _ _ h) .nil
  | subscribe heard h _ =>
    obtain ⟨rfl, rfl⟩ := Prod.mk.inj moves
    refine ⟨_, _, .of_step rfl, ⟨similar.subjects, ?_, similar.journal, similar.memory⟩, ?_⟩
    · exact List.rel_append similar.subscriptions (.cons (.mk _ heard) .nil)
    · rw [← similar.subscriptions.length_eq]
      exact .cons (.opening _ _ _ (h _)) .nil

/-- What one network does in a step is matched by what a similar one does. -/
theorem step {frame : Frame κ ν ρ σ} {frame' : Frame κ ν ρ τ}
    (same : frame.Similar alike read frame') (similar : network.Similar alike read network')
    (moves : network.step [frame] = (next, frames)) :
    ∃ next' frames', network'.Reaches [frame'] next' frames' ∧
      next.Similar alike read next' ∧ List.Forall₂ (Frame.Similar alike read) frames frames' := by
  obtain ⟨inPlace, same_frames, transition⟩ := transition_of_step moves
  rw [List.append_nil] at same_frames
  subst same_frames
  generalize network.stepEvents frame = es at transition
  cases same with
  | script h => exact stepScript h similar moves
  | fanOut key value waiting audience h =>
    have same_subject := similar.subject key
    cases transition with
    | @delivered _ _ n leaf _ _ _ _ wakes =>
      obtain ⟨fed, woken⟩ := similar.feed n leaf (some value)
      rw [wakes] at woken
      exact ⟨_, _, .of_step rfl, fed, List.rel_append woken (.cons (.fanOut _ _ _ _ h) .nil)⟩
    | resumed head =>
      refine ⟨_, _, .resumed (same_subject ▸ head), similar.setOut key _ _, ?_⟩
      rw [← same_subject]
      exact .cons (.fanOut _ _ _ _ h) .nil
    | finished empty =>
      refine ⟨_, _, .finished (same_subject ▸ empty), ?_, .cons (.script (h audience)) .nil⟩
      rw [← same_subject]
      exact similar.setSubject key _
  | opening n leaf leaves h =>
    cases transition with
    | @attached key _ _ _ _ silent =>
      have same_subject := similar.subject key
      exact ⟨_, _, .attached (same_subject ▸ silent), similar.attach key n leaf,
        .cons (.opening _ _ _ h) .nil⟩
    | @replayed key _ _ _ _ value _ current wakes =>
      have same_subject := similar.subject key
      obtain ⟨fed, woken⟩ := (similar.attach key n leaf).feed n leaf (some value)
      rw [wakes] at woken
      exact ⟨_, _, ⟨_, .replayed (same_subject ▸ current)⟩, fed,
        List.rel_append woken (.cons (.opening _ _ _ h) .nil)⟩
    | supplied wakes =>
      obtain ⟨fed, woken⟩ := similar.feed n leaf none
      rw [wakes] at woken
      exact ⟨_, _, .of_step rfl, fed, List.rel_append woken (.cons (.opening _ _ _ h) .nil)⟩
    | opened => exact ⟨_, _, .of_step rfl, similar, .cons (.script h) .nil⟩

/-- A run is matched by a run, and a run to the end by a run to the end. -/
theorem run {stack final : List (Frame κ ν ρ σ)} {stack' : List (Frame κ ν ρ τ)}
    {es : List (Event κ ν)} (similar : network.Similar alike read network')
    (onStack : List.Forall₂ (Frame.Similar alike read) stack stack')
    (runs : Run network stack es next final) :
    ∃ next' final', network'.Reaches stack' next' final' ∧ next.Similar alike read next' ∧
      List.Forall₂ (Frame.Similar alike read) final final' := by
  induction runs generalizing network' stack' with
  | still network stack => exact ⟨network', stack', .refl _ _, similar, onStack⟩
  | @step network next last frame rest stack final es here _ ih =>
    cases onStack with
    | cons same rests =>
      obtain ⟨middle, inPlace, first, similar', frames⟩ := step same similar rfl
      obtain ⟨rfl, rfl⟩ := Prod.mk.inj ((step_below network frame [] rest).symm.trans here)
      obtain ⟨last, final', second, similar'', finals⟩ :=
        ih similar' (List.rel_append frames rests)
      exact ⟨last, final', (first.above _).trans second, similar'', finals⟩

/-- A script that comes to its end has similar scripts that come to theirs. -/
theorem perform {script : Script κ ν ρ σ} {script' : Script κ ν ρ τ}
    {es : List (Event κ ν)} (similar : network.Similar alike read network')
    (same : script.Similar alike read script') (runs : Run network [.script script] es next []) :
    ∃ next', network'.Reaches [.script script'] next' [] ∧ next.Similar alike read next' := by
  obtain ⟨next', final', reaches, similar', finals⟩ := run similar (.cons (.script same) .nil) runs
  obtain rfl := List.forall₂_nil_left_iff.mp finals
  exact ⟨next', reaches, similar'⟩

end Similar

end Network

end Switchboard
