import Mathlib.Data.List.Induction
import Mathlib.Data.List.Nodup
import Switchboard.Stream.Handle

/-!
# What becomes of handles

Handles come one after the other and are numbered. Two of them may be merged,
which uses both up, and each may be closed as often as one likes. What a handle
keeps moves with it: it is kept by the new handle after a merger and by no
handle after closing, and it is taken back when the handle that keeps it is
closed. So everything that has come with a handle is in one place all the time,
and is taken back once at most.
-/
namespace Switchboard

variable {κ : Type}

section Registrations

variable {n start : Nat} {leaves : List (Leaf κ)} {registration : Registration κ}

/-- What a subscription registers are its leaves at subjects. -/
theorem mem_registrationsFrom_iff :
    registration ∈ registrationsFrom n start leaves ↔ registration.subscription = n ∧
      ∃ leaf, registration.leaf = start + leaf ∧
        leaves[leaf]? = some (.subject registration.subject) := by
  induction leaves generalizing start with
  | nil => simp [registrationsFrom]
  | cons first rest ih =>
    constructor
    · intro listed
      cases first with
      | own =>
        obtain ⟨same, leaf, place, found⟩ := ih.mp listed
        exact ⟨same, leaf + 1, by omega, found⟩
      | subject key =>
        rcases List.mem_cons.mp listed with rfl | later
        · exact ⟨rfl, 0, rfl, rfl⟩
        · obtain ⟨same, leaf, place, found⟩ := ih.mp later
          exact ⟨same, leaf + 1, by omega, found⟩
    · rintro ⟨same, leaf, place, found⟩
      cases leaf with
      | zero =>
        obtain rfl : first = .subject registration.subject := Option.some.inj found
        obtain ⟨key, m, l⟩ := registration
        obtain rfl : m = n := same
        obtain rfl : l = start := place
        exact List.mem_cons_self
      | succ leaf =>
        have later : registration ∈ registrationsFrom n (start + 1) rest :=
          ih.mpr ⟨same, leaf, by omega, found⟩
        cases first with
        | own => exact later
        | subject key => exact List.mem_cons_of_mem _ later

theorem registrationsFrom_ordered (n start : Nat) (leaves : List (Leaf κ)) :
    (registrationsFrom n start leaves).Pairwise fun one later => one.leaf < later.leaf := by
  induction leaves generalizing start with
  | nil => exact .nil
  | cons first rest ih =>
    cases first with
    | own => exact ih (start + 1)
    | subject key =>
      refine List.pairwise_cons.mpr ⟨fun later listed => ?_, ih (start + 1)⟩
      obtain ⟨_, leaf, place, _⟩ := mem_registrationsFrom_iff.mp listed
      show start < later.leaf
      omega

theorem mem_handle {ν ρ α : Type} {stream : Stream κ ν ρ α} :
    registration ∈ (stream.handle n).registrations ↔
      registration.subscription = n ∧
        stream.leaves[registration.leaf]? = some (.subject registration.subject) := by
  refine mem_registrationsFrom_iff.trans (and_congr_right fun _ => ?_)
  simp

end Registrations

namespace Handle

variable [DecidableEq κ]

/-- The listeners of a subject that a handle keeps. -/
def listenersAt (key : κ) (handle : Handle κ) : List (Nat × Nat) :=
  (handle.registrations.filter (·.subject = key)).map fun registration =>
    (registration.subscription, registration.leaf)

theorem mem_listenersAt {key : κ} {handle : Handle κ} {listener : Nat × Nat} :
    listener ∈ handle.listenersAt key ↔
      ⟨key, listener.1, listener.2⟩ ∈ handle.registrations := by
  rw [listenersAt, List.mem_map]
  constructor
  · rintro ⟨⟨place, n, leaf⟩, listed, rfl⟩
    obtain ⟨kept, here⟩ := List.mem_filter.mp listed
    obtain rfl : place = key := of_decide_eq_true here
    exact kept
  · intro kept
    exact ⟨_, List.mem_filter.mpr ⟨kept, decide_eq_true rfl⟩, rfl⟩

/-- The leaves of a stream at a subject are as many listeners there. -/
theorem length_listenersAt {ν ρ α : Type} (stream : Stream κ ν ρ α) (n : Nat) (key : κ) :
    ((stream.handle n).listenersAt key).length = stream.leaves.count (.subject key) := by
  rw [listenersAt, List.length_map]
  show ((registrationsFrom n 0 stream.leaves).filter _).length = _
  generalize 0 = start
  induction stream.leaves generalizing start with
  | nil => rfl
  | cons first rest ih =>
    cases first with
    | own => exact (ih (start + 1)).trans (List.count_cons_of_ne (by simp)).symm
    | subject place =>
      by_cases here : place = key
      · subst here
        rw [registrationsFrom, List.filter_cons_of_pos (by simp), List.length_cons, ih,
          List.count_cons_self]
      · rw [registrationsFrom, List.filter_cons_of_neg (by simpa using here), ih,
          List.count_cons_of_ne (by simpa using here)]

end Handle

/-- What is done with handles. Those that come and those that result from a merger are new ones. -/
inductive Handling (κ : Type) where
  | receive (registrations : List (Registration κ))
  | merge (left right : Nat)
  | unsubscribe (number : Nat)

/-- All that has come with handles. -/
def Handling.received (handlings : List (Handling κ)) : List (Registration κ) :=
  handlings.flatMap fun
    | .receive registrations => registrations
    | .merge .. | .unsubscribe _ => []

/-- What is kept at the place of a handle that may have been used up. -/
def keptAt : Option (Handle κ) → List (Registration κ)
  | some handle => handle.registrations
  | none => []

/-- Handles by number, unless they have been used up, and what has been taken back so far. -/
structure Cabinet (κ : Type) where
  handles : List (Option (Handle κ))
  takenBack : List (Registration κ)

namespace Cabinet

def handle? (cabinet : Cabinet κ) (number : Nat) : Option (Handle κ) :=
  cabinet.handles[number]?.join

/-- What handles keep. -/
def kept (cabinet : Cabinet κ) : List (Registration κ) := cabinet.handles.flatMap keptAt

/-- One thing that is done with handles. One that has been used up is good for nothing any more. -/
def perform (cabinet : Cabinet κ) : Handling κ → Cabinet κ
  | .receive registrations =>
    { cabinet with handles := cabinet.handles ++ [some ⟨registrations, false⟩] }
  | .merge left right =>
    match cabinet.handle? left, cabinet.handle? right with
    | some a, some b =>
      if left = right then cabinet
      else
        { cabinet with
          handles := (cabinet.handles.set left none).set right none ++ [some (a.merge b)] }
    | _, _ => cabinet
  | .unsubscribe number =>
    match cabinet.handle? number with
    | some handle =>
      ⟨cabinet.handles.set number (some handle.close), cabinet.takenBack ++ handle.released⟩
    | none => cabinet

/-- What there is after some handlings. -/
def after (handlings : List (Handling κ)) : Cabinet κ := handlings.foldl perform ⟨[], []⟩

/-- A handle that has been closed keeps nothing. -/
def Tidy (handles : List (Option (Handle κ))) : Prop :=
  ∀ handle, some handle ∈ handles → handle.closed = true → handle.registrations = []

/-- What one thing that is done comes to. -/
structure Conserves (cabinet : Cabinet κ) (handling : Handling κ) (next : Cabinet κ) : Prop where
  tidy : Tidy next.handles
  /-- Nothing is lost and nothing doubled. -/
  all : (next.takenBack ++ next.kept).Perm
    (cabinet.takenBack ++ cabinet.kept ++ Handling.received [handling])
  /-- Nothing that has been taken back comes again. -/
  grows : cabinet.takenBack <+: next.takenBack

variable {cabinet : Cabinet κ} {number : Nat} {handle : Handle κ}

theorem handle?_eq_some_iff :
    cabinet.handle? number = some handle ↔ cabinet.handles[number]? = some (some handle) :=
  Option.join_eq_some_iff

theorem mem_kept (there : cabinet.handle? number = some handle) {registration : Registration κ}
    (keeps : registration ∈ handle.registrations) : registration ∈ cabinet.kept :=
  List.mem_flatMap.mpr
    ⟨_, List.mem_of_getElem? (handle?_eq_some_iff.mp there), keeps⟩

theorem Tidy.released (tidy : Tidy cabinet.handles) (there : cabinet.handle? number = some handle) :
    handle.released = handle.registrations := by
  unfold Handle.released
  split
  · rename_i closed
    exact (tidy handle (List.mem_of_getElem? (handle?_eq_some_iff.mp there)) closed).symm
  · rfl

theorem Tidy.set {handles : List (Option (Handle κ))} (tidy : Tidy handles) (number : Nat)
    {new : Option (Handle κ)}
    (clean : ∀ handle, some handle = new → handle.closed = true → handle.registrations = []) :
    Tidy (handles.set number new) := by
  intro handle member closed
  rcases List.mem_or_eq_of_mem_set member with old | same
  · exact tidy handle old closed
  · exact clean handle same closed

theorem Tidy.without {handles : List (Option (Handle κ))} (tidy : Tidy handles) (number : Nat) :
    Tidy (handles.set number none) :=
  tidy.set number nofun

theorem Tidy.snoc {handles : List (Option (Handle κ))} (tidy : Tidy handles)
    (registrations : List (Registration κ)) : Tidy (handles ++ [some ⟨registrations, false⟩]) := by
  intro handle member closed
  rcases List.mem_append.mp member with old | new
  · exact tidy handle old closed
  · obtain rfl := Option.some.inj (List.mem_singleton.mp new)
    exact nomatch closed

/-- What has been put in a place comes in exchange for what was kept there. -/
theorem flatMap_set_perm {handles : List (Option (Handle κ))} {old : Option (Handle κ)}
    (there : handles[number]? = some old) (new : Option (Handle κ)) :
    ((handles.set number new).flatMap keptAt ++ keptAt old).Perm
      (handles.flatMap keptAt ++ keptAt new) := by
  induction handles generalizing number with
  | nil => exact nomatch there
  | cons first rest ih =>
    cases number with
    | zero =>
      obtain rfl : first = old := Option.some.inj there
      rw [List.set_cons_zero, List.flatMap_cons, List.flatMap_cons, List.append_assoc]
      exact List.perm_append_comm.trans (List.perm_append_comm.append_right _)
    | succ number =>
      rw [List.set_cons_succ, List.flatMap_cons, List.flatMap_cons, List.append_assoc,
        List.append_assoc]
      exact (ih there).append_left _

theorem Conserves.still (tidy : Tidy cabinet.handles) {handling : Handling κ}
    (nothing : Handling.received [handling] = []) : cabinet.Conserves handling cabinet :=
  ⟨tidy, by rw [nothing, List.append_nil], List.prefix_rfl⟩

theorem Conserves.receive (tidy : Tidy cabinet.handles) (registrations : List (Registration κ)) :
    cabinet.Conserves (.receive registrations) (cabinet.perform (.receive registrations)) where
  tidy := tidy.snoc registrations
  all := by
    rw [kept, perform, List.flatMap_append, ← List.append_assoc]
    exact .refl _
  grows := List.prefix_rfl

theorem Conserves.merge (tidy : Tidy cabinet.handles) (left right : Nat) :
    cabinet.Conserves (.merge left right) (cabinet.perform (.merge left right)) := by
  rw [perform]
  split
  · rename_i a b there there'
    split
    · exact .still tidy rfl
    · rename_i apart
      have here := handle?_eq_some_iff.mp there
      have here' : (cabinet.handles.set left none)[right]? = some (some b) := by
        rw [List.getElem?_set_ne apart]
        exact handle?_eq_some_iff.mp there'
      have first := flatMap_set_perm here none
      have second := flatMap_set_perm here' none
      rw [keptAt, keptAt, List.append_nil] at first second
      refine ⟨((tidy.without left).without right).snoc _, ?_, List.prefix_rfl⟩
      rw [kept, List.flatMap_append, List.flatMap_singleton, Handling.received,
        List.flatMap_singleton, List.append_nil]
      -- What the new handle keeps is what was kept in the two places.
      have moved : (((cabinet.handles.set left none).set right none).flatMap keptAt ++
          (a.registrations ++ b.registrations)).Perm cabinet.kept :=
        ((List.perm_append_comm.append_left _).trans
          (.of_eq (List.append_assoc _ _ _).symm)).trans ((second.append_right _).trans first)
      exact moved.append_left _
  · exact .still tidy rfl

theorem Conserves.unsubscribe (tidy : Tidy cabinet.handles) (number : Nat) :
    cabinet.Conserves (.unsubscribe number) (cabinet.perform (.unsubscribe number)) := by
  rw [perform]
  split
  · rename_i handle there
    have exchange := flatMap_set_perm (handle?_eq_some_iff.mp there) (some handle.close)
    rw [keptAt, keptAt, Handle.close, List.append_nil] at exchange
    refine ⟨tidy.set number ?_, ?_, List.prefix_append _ _⟩
    · rintro _ ⟨⟩ _
      rfl
    · rw [tidy.released there, Handling.received, List.flatMap_singleton, List.append_nil,
        List.append_assoc]
      exact (List.perm_append_comm.trans exchange).append_left _
  · exact .still tidy rfl

/-- Whatever is done with handles. -/
theorem Tidy.conserves (tidy : Tidy cabinet.handles) (handling : Handling κ) :
    cabinet.Conserves handling (cabinet.perform handling) := by
  cases handling with
  | receive registrations => exact .receive tidy registrations
  | merge left right => exact .merge tidy left right
  | unsubscribe number => exact .unsubscribe tidy number

theorem after_append (before later : List (Handling κ)) :
    after (before ++ later) = later.foldl perform (after before) :=
  List.foldl_append

/-- All that has come with handles is kept or has been taken back. -/
theorem after_conserves (handlings : List (Handling κ)) :
    Tidy (after handlings).handles ∧
      ((after handlings).takenBack ++ (after handlings).kept).Perm
        (Handling.received handlings) := by
  induction handlings using List.reverseRecOn with
  | nil => exact ⟨nofun, .refl _⟩
  | append_singleton before handling ih =>
    obtain ⟨tidy, all⟩ := ih
    have here := tidy.conserves handling
    have parts : Handling.received (before ++ [handling]) =
        Handling.received before ++ Handling.received [handling] :=
      List.flatMap_append
    rw [after_append, parts]
    exact ⟨here.tidy, here.all.trans (all.append_right _)⟩

theorem after_grows (before later : List (Handling κ)) :
    (after before).takenBack <+: (after (before ++ later)).takenBack := by
  induction later using List.reverseRecOn with
  | nil => simp only [List.append_nil, List.prefix_rfl]
  | append_singleton later handling ih =>
    rw [← List.append_assoc, after_append (before ++ later)]
    exact ih.trans ((after_conserves (before ++ later)).1.conserves handling).grows

section Once

variable {handlings before later : List (Handling κ)}

/-- What is kept has not been taken back, and what has been taken back is not kept. -/
theorem nodup_after (distinct : (Handling.received handlings).Nodup) :
    (after handlings).takenBack.Nodup ∧ (after handlings).kept.Nodup ∧
      ∀ registration ∈ (after handlings).kept, registration ∉ (after handlings).takenBack := by
  have all := (after_conserves handlings).2.nodup_iff.mpr distinct
  obtain ⟨once, once', apart⟩ := List.nodup_append.mp all
  exact ⟨once, once', fun registration kept back => apart _ back _ kept rfl⟩

/-- What a handle keeps is taken back as soon as it is closed, and never again. -/
theorem taken_back_once [DecidableEq κ] (distinct : (Handling.received handlings).Nodup)
    (place : handlings = before ++ .unsubscribe number :: later)
    (there : (after before).handle? number = some handle) {registration : Registration κ}
    (keeps : registration ∈ handle.registrations) :
    registration ∉ (after before).takenBack ∧
      (after (before ++ [.unsubscribe number])).takenBack.count registration = 1 ∧
      (after handlings).takenBack.count registration = 1 := by
  have tidy := (after_conserves before).1
  have now : (after (before ++ [.unsubscribe number])).takenBack =
      (after before).takenBack ++ handle.registrations := by
    rw [after_append, List.foldl_cons, List.foldl_nil, perform, there]
    show _ ++ handle.released = _
    rw [tidy.released there]
  have back : registration ∈ (after (before ++ [.unsubscribe number])).takenBack := by
    rw [now]
    exact List.mem_append_right _ keeps
  have whole : handlings = before ++ [.unsubscribe number] ++ later := by
    rw [place, List.append_assoc, List.singleton_append]
  have grows := after_grows (before ++ [.unsubscribe number]) later
  rw [← whole] at grows
  obtain ⟨once, _, _⟩ := nodup_after distinct
  have once' := once.sublist grows.sublist
  refine ⟨fun earlier => ?_, List.count_eq_one_of_mem once' back,
    List.count_eq_one_of_mem once (grows.subset back)⟩
  rw [now] at once'
  exact (List.nodup_append.mp once').2.2 _ earlier _ keeps rfl

end Once

end Cabinet

end Switchboard
