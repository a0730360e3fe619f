import Mathlib.Data.List.Induction
import Switchboard.Proofs.Stream.Push

/-!
# The course of a subscription

What a subscription to a stream has come to after some values have been let in
at its leaves, one after the other: its state, and all values that have
reached the top. Values at leaves that the stream does not have are lost.
-/
namespace Switchboard.Stream

variable {κ ν ρ α : Type}

/-- One more value, or an own value of the stream, at a leaf. -/
def advance (stream : Stream κ ν ρ α) (before : stream.State × List α)
    (feed : Nat × Option ν) : stream.State × List α :=
  match stream.push before.1 feed.1 feed.2 with
  | .ok pushed => (pushed.state, before.2 ++ pushed.value.toList)
  | .error _ => before

def course (stream : Stream κ ν ρ α) (feeds : List (Nat × Option ν)) : stream.State × List α :=
  feeds.foldl stream.advance (stream.initial, [])

@[simp] theorem course_nil (stream : Stream κ ν ρ α) : stream.course [] = (stream.initial, []) :=
  rfl

theorem course_snoc (stream : Stream κ ν ρ α) (feeds : List (Nat × Option ν))
    (feed : Nat × Option ν) :
    stream.course (feeds ++ [feed]) = stream.advance (stream.course feeds) feed := by
  simp [course]

/-- The values that have been let in at a leaf. -/
def valuesAt (leaf : Nat) (feeds : List (Nat × Option ν)) : List ν :=
  feeds.filterMap fun feed => if feed.1 = leaf then feed.2 else none

@[simp] theorem valuesAt_append (leaf : Nat) (feeds more : List (Nat × Option ν)) :
    valuesAt leaf (feeds ++ more) = valuesAt leaf feeds ++ valuesAt leaf more := by
  simp [valuesAt]

/-- A subject passes on what it is given. -/
theorem course_subject (key : κ) (feeds : List (Nat × Option ν)) :
    ((.subject key : Stream κ ν ρ ν).course feeds).2 = valuesAt 0 feeds := by
  induction feeds using List.reverseRecOn with
  | nil => rfl
  | append_singleton feeds feed ih =>
    rw [course_snoc, valuesAt_append, ← ih]
    obtain ⟨leaf, incoming⟩ := feed
    cases leaf with
    | zero => cases incoming <;> simp [advance, push_subject, valuesAt]
    | succ leaf => simp [advance, push_subject_beyond, valuesAt]

end Switchboard.Stream
