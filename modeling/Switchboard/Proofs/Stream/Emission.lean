import Switchboard.Proofs.Stream.Last

/-!
# What a single feed brings about

A value that is let in brings at most one value to the top. If it does, each
part of the stream on the way has passed something on, and a stream that
leaves out repetitions has passed on something else than before.
-/
namespace Switchboard.Stream

variable {κ ν ρ α β γ : Type}

/-- One more feed brings at most one value to the top. -/
theorem course_step (stream : Stream κ ν ρ α) (feeds : List (Nat × Option ν))
    (feed : Nat × Option ν) :
    ∃ value : Option α,
      (stream.course (feeds ++ [feed])).2 = (stream.course feeds).2 ++ value.toList := by
  rw [course_snoc, advance]
  cases stream.push (stream.course feeds).1 feed.1 feed.2 with
  | error beyond => exact ⟨none, by simp⟩
  | ok pushed => exact ⟨pushed.value, rfl⟩

/-- What has reached the top stays there. -/
theorem course_grows (stream : Stream κ ν ρ α) (feeds more : List (Nat × Option ν)) :
    ∃ values, (stream.course (feeds ++ more)).2 = (stream.course feeds).2 ++ values := by
  induction more using List.reverseRecOn with
  | nil => exact ⟨[], by simp⟩
  | append_singleton more feed ih =>
    obtain ⟨values, grown⟩ := ih
    obtain ⟨value, step⟩ := stream.course_step (feeds ++ more) feed
    refine ⟨values ++ value.toList, ?_⟩
    rw [← List.append_assoc, step, grown, List.append_assoc]

/-- What some more feeds bring to the top. -/
def emitted (stream : Stream κ ν ρ α) (feeds more : List (Nat × Option ν)) : List α :=
  (stream.course (feeds ++ more)).2.drop (stream.course feeds).2.length

theorem course_append (stream : Stream κ ν ρ α) (feeds more : List (Nat × Option ν)) :
    (stream.course (feeds ++ more)).2 = (stream.course feeds).2 ++ stream.emitted feeds more := by
  obtain ⟨values, grown⟩ := stream.course_grows feeds more
  rw [emitted, grown, List.drop_left]

theorem emitted_nil (stream : Stream κ ν ρ α) (feeds : List (Nat × Option ν)) :
    stream.emitted feeds [] = [] := by
  simp [emitted]

theorem emitted_append (stream : Stream κ ν ρ α) (feeds more later : List (Nat × Option ν)) :
    stream.emitted feeds (more ++ later) =
      stream.emitted feeds more ++ stream.emitted (feeds ++ more) later := by
  have whole := stream.course_append feeds (more ++ later)
  rw [← List.append_assoc, course_append, course_append, List.append_assoc] at whole
  exact (List.append_cancel_left whole).symm

/-- A feed that brings a value to the top. -/
def Emits (stream : Stream κ ν ρ α) (feeds : List (Nat × Option ν)) (feed : Nat × Option ν)
    (value : α) : Prop :=
  (stream.course (feeds ++ [feed])).2 = (stream.course feeds).2 ++ [value]

theorem Emits.last {stream : Stream κ ν ρ α} {feeds : List (Nat × Option ν)}
    {feed : Nat × Option ν} {value : α} (emits : stream.Emits feeds feed value) :
    stream.last (feeds ++ [feed]) = some value := by
  rw [Stream.last, emits, List.getLast?_concat]

/-- Every value that reaches the top is brought there by a feed. -/
theorem exists_emits {stream : Stream κ ν ρ α} {feeds more : List (Nat × Option ν)}
    {values : List α}
    (emitted : (stream.course (feeds ++ more)).2 = (stream.course feeds).2 ++ values) :
    ∀ value ∈ values, ∃ front feed back, more = front ++ feed :: back ∧
      stream.Emits (feeds ++ front) feed value := by
  induction more using List.reverseRecOn generalizing values with
  | nil =>
    intro value member
    have nothing : values = [] := by simpa using emitted
    rw [nothing] at member
    exact nomatch member
  | append_singleton more feed ih =>
    obtain ⟨earlier, grown⟩ := stream.course_grows feeds more
    obtain ⟨last, step⟩ := stream.course_step (feeds ++ more) feed
    have both : values = earlier ++ last.toList := by
      rw [← List.append_assoc, step, grown, List.append_assoc] at emitted
      exact (List.append_cancel_left emitted).symm
    intro value member
    rw [both, List.mem_append] at member
    rcases member with member | member
    · obtain ⟨front, first, back, rfl, emits⟩ := ih grown value member
      exact ⟨front, first, back ++ [feed], by simp, emits⟩
    · obtain rfl : last = some value := by simpa using member
      exact ⟨more, feed, [], rfl, step⟩

/-- What is done to the values of a source needs a value of the source. -/
theorem Emits.of_filterMap {f : α → Option β} {source : Stream κ ν ρ α}
    {feeds : List (Nat × Option ν)} {feed : Nat × Option ν} {value : β}
    (emits : (Stream.filterMap f source).Emits feeds feed value) :
    ∃ a, source.Emits feeds feed a ∧ f a = some value := by
  obtain ⟨passed, step⟩ := source.course_step feeds feed
  rw [Emits, course_filterMap, course_filterMap, step, List.filterMap_append] at emits
  have one := List.append_cancel_left emits
  cases passed with
  | none => exact nomatch one
  | some a =>
    cases here : f a with
    | none => simp [here] at one
    | some b =>
      obtain rfl : b = value := by simpa [here] using one
      exact ⟨a, step, here⟩

/-- A stream that leaves out repetitions passes on something else than before. -/
theorem Emits.of_distinct {decEq : DecidableEq α} {source : Stream κ ν ρ α}
    {feeds : List (Nat × Option ν)} {feed : Nat × Option ν} {value : α}
    (emits : (Stream.distinct decEq source).Emits feeds feed value) :
    source.last feeds ≠ some value := by
  have memory := (course_distinct decEq source feeds).1
  rw [Emits, course_snoc, advance, memory] at emits
  intro same
  cases pushed : source.push (source.course feeds).1 feed.1 feed.2 with
  | error beyond => simp [push_distinct, pushed] at emits
  | ok pushed' =>
    obtain ⟨after, passed, remarks⟩ := pushed'
    cases passed with
    | none => simp [push_distinct, pushed] at emits
    | some a =>
      by_cases repeated : source.last feeds = some a
      · simp [push_distinct, pushed, repeated] at emits
      · have here : a = value := by simpa [push_distinct, pushed, repeated] using emits
        rw [here] at repeated
        exact repeated same

/-- Where a feed at the left side brings a pair to the top, the left side has passed on a value. -/
theorem Emits.of_combine {f : α → β → γ} {left : Stream κ ν ρ α} {right : Stream κ ν ρ β}
    {feeds : List (Nat × Option ν)} {leaf : Nat} {incoming : Option ν} {value : γ}
    (emits : (Stream.combine f left right).Emits feeds (leaf, incoming) value)
    (inner : leaf < left.leaves.length) :
    ∃ a, left.Emits (window 0 left.leaves.length feeds) (leaf, incoming) a := by
  have memory := (course_combine f left right feeds).1
  rw [Emits, course_snoc, advance, memory] at emits
  obtain ⟨⟨after, passed, remarks⟩, pushed⟩ :=
    left.push_within (left.course (window 0 left.leaves.length feeds)).1 inner incoming
  cases passed with
  | none => simp [push_combine, pushed] at emits
  | some a =>
    refine ⟨a, ?_⟩
    rw [Emits, course_snoc, advance, pushed]
    rfl

/-- A feed that brings nothing to the top. -/
def Silent (stream : Stream κ ν ρ α) (feeds : List (Nat × Option ν)) (feed : Nat × Option ν) :
    Prop :=
  (stream.course (feeds ++ [feed])).2 = (stream.course feeds).2

theorem silent_or_emits (stream : Stream κ ν ρ α) (feeds : List (Nat × Option ν))
    (feed : Nat × Option ν) : stream.Silent feeds feed ∨ ∃ value, stream.Emits feeds feed value := by
  obtain ⟨value, step⟩ := stream.course_step feeds feed
  cases value with
  | none => exact .inl (step.trans (List.append_nil _))
  | some value => exact .inr ⟨value, step⟩

theorem Silent.last {stream : Stream κ ν ρ α} {feeds : List (Nat × Option ν)}
    {feed : Nat × Option ν} (silent : stream.Silent feeds feed) :
    stream.last (feeds ++ [feed]) = stream.last feeds :=
  congrArg List.getLast? silent

section Combine

variable {f : α → β → γ} {left : Stream κ ν ρ α} {right : Stream κ ν ρ β}
variable {feeds : List (Nat × Option ν)} {incoming : Option ν}

/-- Where the right side has a value, nothing comes of the left side in silence. -/
theorem Silent.at_left {leaf : Nat} (silent : (Stream.combine f left right).Silent feeds (leaf, incoming))
    (inner : leaf < left.leaves.length) {b : β}
    (other : right.last (window left.leaves.length right.leaves.length feeds) = some b) :
    left.Silent (window 0 left.leaves.length feeds) (leaf, incoming) := by
  have memory := (course_combine f left right feeds).1
  rw [Silent, course_snoc, advance, memory] at silent
  obtain ⟨⟨after, passed, remarks⟩, pushed⟩ :=
    left.push_within (left.course (window 0 left.leaves.length feeds)).1 inner incoming
  cases passed with
  | none =>
    rw [Silent, course_snoc, advance, pushed]
    exact List.append_nil _
  | some a => simp [push_combine, pushed, other] at silent

/-- Where the left side has a value, nothing comes of the right side in silence. -/
theorem Silent.at_right {more : Nat}
    (silent : (Stream.combine f left right).Silent feeds (left.leaves.length + more, incoming))
    (inner : more < right.leaves.length) {a : α}
    (other : left.last (window 0 left.leaves.length feeds) = some a) :
    right.Silent (window left.leaves.length right.leaves.length feeds) (more, incoming) := by
  have memory := (course_combine f left right feeds).1
  rw [Silent, course_snoc, advance, memory] at silent
  obtain ⟨⟨after, passed, remarks⟩, pushed⟩ := right.push_within
    (right.course (window left.leaves.length right.leaves.length feeds)).1 inner incoming
  cases passed with
  | none =>
    rw [Silent, course_snoc, advance, pushed]
    exact List.append_nil _
  | some b => simp [push_combine, push_beyond, pushed, other] at silent

end Combine

end Switchboard.Stream
