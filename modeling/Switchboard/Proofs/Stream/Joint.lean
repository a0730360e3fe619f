import Mathlib.Data.List.Chain
import Switchboard.Proofs.Stream.Emission

/-!
# Joint updates

Two streams side by side pass on a pair whenever one of them passes on a value
and the other has had one. If neither side ever repeats itself, any two
successive pairs differ in exactly one component: the one whose side has just
passed something on.
-/
namespace Switchboard.Stream

variable {κ ν ρ α β γ : Type}

/-- What is combined from the values of both sides is combined from their pairs. -/
theorem course_combine_pair (f : α → β → γ) (left : Stream κ ν ρ α) (right : Stream κ ν ρ β)
    (feeds : List (Nat × Option ν)) :
    ((Stream.combine f left right).course feeds).2 =
      ((left.pair right).course feeds).2.map fun joint => f joint.1 joint.2 := by
  induction feeds using List.reverseRecOn with
  | nil => rfl
  | append_singleton feeds feed ih =>
    have memory := (course_combine f left right feeds).1
    have memory' := (course_combine Prod.mk left right feeds).1
    rw [pair, course_snoc, course_snoc, advance, advance, memory, memory', ih, push_combine,
      push_combine]
    generalize left.last (window 0 left.leaves.length feeds) = held
    generalize right.last (window left.leaves.length right.leaves.length feeds) = held'
    cases left.push (left.course (window 0 left.leaves.length feeds)).1 feed.1 feed.2 with
    | ok pushed =>
      obtain ⟨after, passed, remarks⟩ := pushed
      cases passed with
      | none => simp [pair]
      | some a => cases held' <;> simp [pair]
    | error beyond =>
      cases there : right.push (right.course (window left.leaves.length right.leaves.length feeds)).1
        beyond feed.2 with
      | ok pushed =>
        obtain ⟨after, passed, remarks⟩ := pushed
        cases passed with
        | none => simp [pair, there]
        | some b => cases held <;> simp [pair, there]
      | error beyond => simpa [pair, there] using ih

/-- A stream that never repeats itself. -/
def Changing (stream : Stream κ ν ρ α) : Prop :=
  ∀ feeds feed value, stream.Emits feeds feed value → stream.last feeds ≠ some value

theorem changing_distinct (decEq : DecidableEq α) (source : Stream κ ν ρ α) :
    (Stream.distinct decEq source).Changing := by
  intro feeds feed value emits
  rw [last_distinct]
  exact emits.of_distinct

theorem Changing.tap {source : Stream κ ν ρ α} (changing : source.Changing) (remark : α → ρ) :
    (Stream.tap remark source).Changing := by
  intro feeds feed value emits
  rw [Emits, course_tap, course_tap] at emits
  rw [last_tap]
  exact changing feeds feed value emits

/-- Where a feed beyond the left side brings something to the top, the right side has passed on a value. -/
theorem Emits.of_combine_right {f : α → β → γ} {left : Stream κ ν ρ α} {right : Stream κ ν ρ β}
    {feeds : List (Nat × Option ν)} {more : Nat} {incoming : Option ν} {value : γ}
    (emits : (Stream.combine f left right).Emits feeds (left.leaves.length + more, incoming) value) :
    more < right.leaves.length ∧
      ∃ b, right.Emits (window left.leaves.length right.leaves.length feeds) (more, incoming) b := by
  have memory := (course_combine f left right feeds).1
  rw [Emits, course_snoc, advance, memory, push_combine, push_beyond] at emits
  by_cases inner : more < right.leaves.length
  · refine ⟨inner, ?_⟩
    obtain ⟨⟨after, passed, remarks⟩, pushed⟩ := right.push_within
      (right.course (window left.leaves.length right.leaves.length feeds)).1 inner incoming
    cases passed with
    | none => simp [pushed] at emits
    | some b =>
      refine ⟨b, ?_⟩
      rw [Emits, course_snoc, advance, pushed]
      rfl
  · obtain ⟨beyond, rfl⟩ := Nat.exists_eq_add_of_le (Nat.not_lt.mp inner)
    simp [push_beyond] at emits

/-- Pairs that differ in exactly one component. -/
def OneSided (before after : α × β) : Prop :=
  (before.1 ≠ after.1 ∧ before.2 = after.2) ∨ (before.1 = after.1 ∧ before.2 ≠ after.2)

variable {left : Stream κ ν ρ α} {right : Stream κ ν ρ β}

/-- The pair that has reached the top last holds what both sides have passed on last. -/
theorem last_pair {feeds : List (Nat × Option ν)} {joint : α × β}
    (last : (left.pair right).last feeds = some joint) :
    left.last (window 0 left.leaves.length feeds) = some joint.1 ∧
      right.last (window left.leaves.length right.leaves.length feeds) = some joint.2 := by
  rw [pair, last_combine] at last
  obtain ⟨a, at_left, last⟩ := Option.bind_eq_some_iff.mp last
  obtain ⟨b, at_right, rfl⟩ := Option.map_eq_some_iff.mp last
  exact ⟨at_left, at_right⟩

/-- A new pair differs from the one before in the component that has been passed on. -/
theorem oneSided_of_emits (changing : left.Changing) (changing' : right.Changing)
    {feeds : List (Nat × Option ν)} {feed : Nat × Option ν} {before after : α × β}
    (emits : (left.pair right).Emits feeds feed after)
    (last : (left.pair right).last feeds = some before) : OneSided before after := by
  obtain ⟨leaf, incoming⟩ := feed
  obtain ⟨old_left, old_right⟩ := last_pair last
  obtain ⟨new_left, new_right⟩ := last_pair emits.last
  rw [window_append, window_single] at new_left new_right
  by_cases inner : leaf < left.leaves.length
  · have inside : 0 ≤ leaf ∧ leaf < 0 + left.leaves.length := by omega
    have outside : ¬(left.leaves.length ≤ leaf ∧
        leaf < left.leaves.length + right.leaves.length) := by omega
    rw [if_pos inside] at new_left
    rw [if_neg outside, List.append_nil, old_right] at new_right
    obtain ⟨a, passes⟩ := Emits.of_combine emits inner
    obtain rfl : a = after.1 := Option.some.inj (passes.last.symm.trans new_left)
    have differs := changing _ _ _ passes
    rw [old_left] at differs
    exact .inl ⟨fun same => differs (congrArg some same), Option.some.inj new_right⟩
  · obtain ⟨more, rfl⟩ := Nat.exists_eq_add_of_le (Nat.not_lt.mp inner)
    obtain ⟨there, b, passes⟩ := Emits.of_combine_right emits
    have outside : ¬(0 ≤ left.leaves.length + more ∧
        left.leaves.length + more < 0 + left.leaves.length) := by omega
    have inside : left.leaves.length ≤ left.leaves.length + more ∧
        left.leaves.length + more < left.leaves.length + right.leaves.length := by omega
    rw [if_neg outside, List.append_nil, old_left] at new_left
    rw [if_pos inside, Nat.add_sub_cancel_left] at new_right
    obtain rfl : b = after.2 := Option.some.inj (passes.last.symm.trans new_right)
    have differs := changing' _ _ _ passes
    rw [old_right] at differs
    exact .inr ⟨Option.some.inj new_left, fun same => differs (congrArg some same)⟩

/-- Successive pairs differ in exactly one component. -/
theorem isChain_pair (changing : left.Changing) (changing' : right.Changing)
    (feeds : List (Nat × Option ν)) : ((left.pair right).course feeds).2.IsChain OneSided := by
  induction feeds using List.reverseRecOn with
  | nil => exact .nil
  | append_singleton feeds feed ih =>
    rcases silent_or_emits (left.pair right) feeds feed with silent | ⟨joint, emits⟩
    · rw [silent]
      exact ih
    · rw [emits, List.isChain_append]
      refine ⟨ih, .singleton joint, fun before last after first => ?_⟩
      obtain rfl : joint = after := by simpa using first
      exact oneSided_of_emits changing changing' emits last

/-- Between two pairs of bits that disagree there is one that agrees. -/
theorem agrees_between {past between later : List (Bool × Bool)} {u v : Bool × Bool}
    (chain : (past ++ u :: (between ++ v :: later)).IsChain OneSided) (first : u.1 ≠ u.2)
    (second : v.1 ≠ v.2) : ∃ w ∈ between, w.1 = w.2 := by
  have next {w : Bool × Bool} (step : OneSided u w) : w.1 = w.2 := by
    obtain ⟨a, b⟩ := u
    obtain ⟨c, d⟩ := w
    revert step first
    cases a <;> cases b <;> cases c <;> cases d <;> simp [OneSided]
  obtain ⟨_, chain, _⟩ := List.isChain_append.mp chain
  cases between with
  | nil =>
    obtain ⟨step, _⟩ := List.isChain_cons_cons.mp chain
    exact absurd (next step) second
  | cons w between =>
    obtain ⟨step, _⟩ := List.isChain_cons_cons.mp chain
    exact ⟨w, List.mem_cons_self, next step⟩

end Switchboard.Stream
