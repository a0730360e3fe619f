import Switchboard.Proofs.Stream.Joint

/-!
# Values that come again

A subject may send out the value that it has sent out last once more. What a
stream makes of the repetition can be what it has passed on last, as long as
nobody is there who leaves that out; where somebody is, nothing reaches the
top. To know that a value is repeated, one only has to look at the leaf where
it comes in, whatever has come in elsewhere in the meantime.
-/
namespace Switchboard.Stream

variable {κ ν ρ α β γ : Type}

/-- The value that has come in last at a leaf comes in there once more. -/
def Repeated (stream : Stream κ ν ρ α) (feeds : List (Nat × Option ν)) (leaf : Nat) (value : ν) :
    Prop :=
  (∃ key, stream.leaves[leaf]? = some (.subject key)) ∧
    (valuesAt leaf feeds).getLast? = some value

/-- Of a value that comes again, nothing comes but what has been passed on last. -/
def Echoes (stream : Stream κ ν ρ α) : Prop :=
  ∀ feeds leaf value passed, stream.Repeated feeds leaf value →
    stream.Emits feeds (leaf, some value) passed → stream.last feeds = some passed

/-- Of a value that comes again, nothing comes. -/
def IgnoresRepeats (stream : Stream κ ν ρ α) : Prop :=
  ∀ feeds leaf value passed, stream.Repeated feeds leaf value →
    ¬stream.Emits feeds (leaf, some value) passed

section Sides

variable {f : α → β → γ} {left : Stream κ ν ρ α} {right : Stream κ ν ρ β}
variable {feeds : List (Nat × Option ν)} {value : ν}

theorem Repeated.at_left {leaf : Nat}
    (repeated : (Stream.combine f left right).Repeated feeds leaf value)
    (inner : leaf < left.leaves.length) :
    left.Repeated (window 0 left.leaves.length feeds) leaf value := by
  obtain ⟨⟨key, there⟩, before⟩ := repeated
  rw [leaves, List.getElem?_append_left inner] at there
  refine ⟨⟨key, there⟩, ?_⟩
  rw [valuesAt_window_add _ _ _ inner, Nat.zero_add]
  exact before

theorem Repeated.at_right {more : Nat}
    (repeated : (Stream.combine f left right).Repeated feeds (left.leaves.length + more) value)
    (inner : more < right.leaves.length) :
    right.Repeated (window left.leaves.length right.leaves.length feeds) more value := by
  obtain ⟨⟨key, there⟩, before⟩ := repeated
  rw [leaves, List.getElem?_append_right (Nat.le_add_right _ _), Nat.add_sub_cancel_left] at there
  refine ⟨⟨key, there⟩, ?_⟩
  rw [valuesAt_window_add _ _ _ inner]
  exact before

end Sides

namespace Echoes

theorem subject (key : κ) : (.subject key : Stream κ ν ρ ν).Echoes := by
  rintro feeds leaf value passed ⟨⟨other, there⟩, before⟩ emits
  obtain ⟨small, _⟩ := List.getElem?_eq_some_iff.mp there
  obtain rfl : leaf = 0 := Nat.lt_one_iff.mp small
  rw [Emits, course_subject, course_subject, valuesAt_append] at emits
  obtain rfl : value = passed := by simpa [valuesAt] using List.append_cancel_left emits
  rw [last, course_subject]
  exact before

theorem constant (value : α) : (Stream.constant value : Stream κ ν ρ α).Echoes := by
  rintro feeds leaf incoming passed ⟨⟨key, there⟩, _⟩
  have own := List.mem_of_getElem? there
  exact nomatch List.mem_singleton.mp own

theorem filterMap {source : Stream κ ν ρ α} (echoes : source.Echoes) (f : α → Option β) :
    (Stream.filterMap f source).Echoes := by
  intro feeds leaf value passed repeated emits
  obtain ⟨a, passes, here⟩ := emits.of_filterMap
  obtain ⟨front, ends⟩ := List.getLast?_eq_some_iff.mp (echoes feeds leaf value a repeated passes)
  rw [last, course_filterMap, ends, List.filterMap_append, List.filterMap_cons_some here]
  exact List.getLast?_concat

/-- The value that stands in for a missing one does not come between two values. -/
theorem property {source : Stream κ ν ρ α} (fallback : α) (g : ν → α)
    (one : source.leaves.length = 1)
    (passes : ∀ state incoming, ∃ after remarks,
      source.push state 0 incoming = .ok ⟨after, incoming.map g, remarks⟩) :
    (Stream.property fallback source).Echoes := by
  rintro feeds leaf value passed ⟨⟨key, there⟩, before⟩ emits
  obtain rfl : leaf = 0 := by
    obtain ⟨small, _⟩ := List.getElem?_eq_some_iff.mp there
    rw [leaves, List.length_append, one, List.length_singleton] at small
    by_cases inner : leaf = 0
    · exact inner
    · obtain rfl : leaf = source.leaves.length := by omega
      rw [leaves, List.getElem?_concat_length] at there
      cases there
  have ends (values : List (Nat × Option ν)) (last_in : (valuesAt 0 values).getLast? = some value) :
      (Stream.property fallback source).last values = some (g value) := by
    obtain ⟨times, course, _⟩ := course_property fallback source g one passes values
    rw [last, course, List.getLast?_append, List.getLast?_map, last_in]
    rfl
  have again := ends (feeds ++ [(0, some value)]) (by simp [valuesAt])
  rw [ends feeds before, ← again]
  exact emits.last

/-- Who leaves repetitions out passes nothing on of what he would have to repeat. -/
theorem distinct {source : Stream κ ν ρ α} (echoes : source.Echoes) (decEq : DecidableEq α) :
    (Stream.distinct decEq source).IgnoresRepeats := by
  intro feeds leaf value passed repeated emits
  have new := emits.of_distinct
  have now : source.last (feeds ++ [(leaf, some value)]) = some passed :=
    (last_distinct decEq source _).symm.trans emits.last
  rcases silent_or_emits source feeds (leaf, some value) with silent | ⟨a, passes⟩
  · exact new (silent.last.symm.trans now)
  · obtain rfl : a = passed := Option.some.inj (passes.last.symm.trans now)
    exact new (echoes feeds leaf value a repeated passes)

end Echoes

namespace IgnoresRepeats

theorem filterMap {source : Stream κ ν ρ α} (ignores : source.IgnoresRepeats) (f : α → Option β) :
    (Stream.filterMap f source).IgnoresRepeats := by
  intro feeds leaf value passed repeated emits
  obtain ⟨a, passes, _⟩ := emits.of_filterMap
  exact ignores feeds leaf value a repeated passes

theorem tap {source : Stream κ ν ρ α} (ignores : source.IgnoresRepeats) (remark : α → ρ) :
    (Stream.tap remark source).IgnoresRepeats := by
  intro feeds leaf value passed repeated emits
  rw [Emits, course_tap, course_tap] at emits
  exact ignores feeds leaf value passed repeated emits

theorem distinct {source : Stream κ ν ρ α} (ignores : source.IgnoresRepeats)
    (decEq : DecidableEq α) : (Stream.distinct decEq source).IgnoresRepeats :=
  Echoes.distinct (fun feeds leaf value passed repeated emits =>
    absurd emits (ignores feeds leaf value passed repeated)) decEq

/-- What comes again reaches one of two sides, and nothing comes of it there. -/
theorem combine {left : Stream κ ν ρ α} {right : Stream κ ν ρ β} (ignores : left.IgnoresRepeats)
    (ignores' : right.IgnoresRepeats) (f : α → β → γ) :
    (Stream.combine f left right).IgnoresRepeats := by
  intro feeds leaf value passed repeated emits
  by_cases inner : leaf < left.leaves.length
  · obtain ⟨a, passes⟩ := emits.of_combine inner
    exact ignores _ leaf value a (repeated.at_left inner) passes
  · obtain ⟨more, rfl⟩ := Nat.exists_eq_add_of_le (Nat.not_lt.mp inner)
    obtain ⟨inner', b, passes⟩ := emits.of_combine_right
    exact ignores' _ more value b (repeated.at_right inner') passes

/-- A subscription that has taken in what its stream makes nothing of passes nothing on. -/
theorem push {stream : Stream κ ν ρ α} (ignores : stream.IgnoresRepeats)
    {feeds : List (Nat × Option ν)} {leaf : Nat} {value : ν}
    (repeated : stream.Repeated feeds leaf value) {pushed : Pushed stream.State α ρ}
    (pushes : stream.push (stream.course feeds).1 leaf (some value) = .ok pushed) :
    pushed.value = none := by
  cases passes : pushed.value with
  | none => rfl
  | some passed =>
    refine absurd ?_ (ignores feeds leaf value passed repeated)
    rw [Emits, course_snoc, advance]
    simp only [pushes, passes, Option.toList_some]

end IgnoresRepeats

end Switchboard.Stream
