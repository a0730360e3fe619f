import Switchboard.Proofs.Stream.Course

/-!
# The last value of a stream

What a subscription has passed on last depends on the last values of the
streams that its stream is made of, each fed with the values at its own leaves
and in their order. How the values at different leaves were interleaved makes
no difference.
-/
namespace Switchboard.Stream

variable {κ ν ρ α β γ : Type}

/-- The last value that has reached the top. -/
def last (stream : Stream κ ν ρ α) (feeds : List (Nat × Option ν)) : Option α :=
  (stream.course feeds).2.getLast?

/-- What has been let in at some leaves in a row, numbered anew. -/
def window (start length : Nat) (feeds : List (Nat × Option ν)) : List (Nat × Option ν) :=
  feeds.filterMap fun feed =>
    if start ≤ feed.1 ∧ feed.1 < start + length then some (feed.1 - start, feed.2) else none

section Window

variable (start length : Nat) (feeds more : List (Nat × Option ν))

@[simp] theorem window_nil : window start length ([] : List (Nat × Option ν)) = [] := rfl

@[simp] theorem window_append :
    window start length (feeds ++ more) = window start length feeds ++ window start length more := by
  simp [window]

theorem window_single (feed : Nat × Option ν) :
    window start length [feed] =
      if start ≤ feed.1 ∧ feed.1 < start + length then [(feed.1 - start, feed.2)] else [] := by
  by_cases h : start ≤ feed.1 ∧ feed.1 < start + length <;> simp [window, h]

theorem window_window (start' length' : Nat) (fits : start + length ≤ length') :
    window start length (window start' length' feeds) = window (start' + start) length feeds := by
  unfold window
  rw [List.filterMap_filterMap]
  congr 1
  funext feed
  by_cases outer : start' ≤ feed.1 ∧ feed.1 < start' + length'
  · by_cases inner : start' + start ≤ feed.1 ∧ feed.1 < start' + start + length
    · have moved : start ≤ feed.1 - start' ∧ feed.1 - start' < start + length := by omega
      simp only [if_pos outer, if_pos inner, Option.bind_some, if_pos moved]
      rw [Nat.sub_sub]
    · have moved : ¬(start ≤ feed.1 - start' ∧ feed.1 - start' < start + length) := by omega
      simp only [if_pos outer, if_neg inner, Option.bind_some, if_neg moved]
  · have inner : ¬(start' + start ≤ feed.1 ∧ feed.1 < start' + start + length) := by omega
    simp only [if_neg outer, if_neg inner, Option.bind_none]

/-- A row of leaves takes in at each what its stream has taken in there. -/
theorem valuesAt_window_add {leaf : Nat} (inner : leaf < length) :
    valuesAt leaf (window start length feeds) = valuesAt (start + leaf) feeds := by
  unfold valuesAt window
  rw [List.filterMap_filterMap]
  congr 1
  funext feed
  by_cases here : feed.1 = start + leaf
  · simp [here, inner]
  · by_cases inside : start ≤ feed.1 ∧ feed.1 < start + length
    · have other : ¬feed.1 - start = leaf := by omega
      simp only [if_pos inside, Option.bind_some, if_neg here, if_neg other]
    · simp only [if_neg inside, Option.bind_none, if_neg here]

theorem valuesAt_window (pos : 0 < length) :
    valuesAt 0 (window start length feeds) = valuesAt start feeds :=
  valuesAt_window_add start length feeds pos

end Window

/-- A value at a leaf that the stream does not have. -/
theorem push_beyond (stream : Stream κ ν ρ α) (state : stream.State) (beyond : Nat)
    (incoming : Option ν) :
    stream.push state (stream.leaves.length + beyond) incoming = .error beyond := by
  induction stream generalizing beyond with
  | subject key =>
    rw [leaves, List.length_singleton, Nat.add_comm]
    rfl
  | constant value =>
    rw [leaves, List.length_singleton, Nat.add_comm]
    rfl
  | filterMap f source ih =>
    change source.State at state
    simp only [push_filterMap, leaves, ih]
  | tap remark source ih =>
    change source.State at state
    simp only [push_tap, leaves, ih]
  | renewed same source ih =>
    change Option _ × source.State at state
    simp only [push_renewed, leaves, ih]
  | property fallback source ih =>
    change Bool × source.State at state
    simp only [push_property, leaves, List.length_append, List.length_singleton, Nat.add_assoc,
      Nat.add_comm 1, ih]
  | combine f left right ih ih' =>
    change (Option _ × Option _) × left.State × right.State at state
    simp only [push_combine, leaves, List.length_append, Nat.add_assoc, ih, ih']

/-- A value at a leaf that the stream has. -/
theorem push_within (stream : Stream κ ν ρ α) (state : stream.State) {leaf : Nat}
    (small : leaf < stream.leaves.length) (incoming : Option ν) :
    ∃ pushed, stream.push state leaf incoming = .ok pushed := by
  induction stream generalizing leaf with
  | subject key =>
    obtain rfl : leaf = 0 := by simpa [leaves] using small
    exact ⟨_, rfl⟩
  | constant value =>
    obtain rfl : leaf = 0 := by simpa [leaves] using small
    exact ⟨_, rfl⟩
  | filterMap f source ih =>
    change source.State at state
    obtain ⟨pushed, h⟩ := ih state small
    simp [push_filterMap, h]
  | tap remark source ih =>
    change source.State at state
    obtain ⟨⟨after, value, remarks⟩, h⟩ := ih state small
    cases value <;> simp [push_tap, h]
  | renewed same source ih =>
    change Option _ × source.State at state
    obtain ⟨⟨after, value, remarks⟩, h⟩ := ih state.2 small
    cases value with
    | none => simp [push_renewed, h]
    | some value => cases again : state.1.any (same · value) <;> simp [push_renewed, h, again]
  | property fallback source ih =>
    change Bool × source.State at state
    rw [leaves, List.length_append, List.length_singleton] at small
    by_cases inner : leaf < source.leaves.length
    · obtain ⟨pushed, h⟩ := ih state.2 inner
      simp [push_property, h]
    · obtain rfl : leaf = source.leaves.length := by omega
      have there := source.push_beyond state.2 0 incoming
      rw [Nat.add_zero] at there
      simp [push_property, there]
  | combine f left right ih ih' =>
    change (Option _ × Option _) × left.State × right.State at state
    rw [leaves, List.length_append] at small
    by_cases inner : leaf < left.leaves.length
    · obtain ⟨⟨after, value, remarks⟩, h⟩ := ih state.2.1 inner
      cases value <;> simp [push_combine, h]
    · obtain ⟨more, rfl⟩ := Nat.exists_eq_add_of_le (Nat.not_lt.mp inner)
      obtain ⟨⟨after, value, remarks⟩, h⟩ := ih' state.2.2 (show more < right.leaves.length by omega)
      cases value <;> simp [push_combine, push_beyond, h]

/-- Values at leaves that the stream does not have make no difference. -/
theorem course_window (stream : Stream κ ν ρ α) (feeds : List (Nat × Option ν)) :
    stream.course (window 0 stream.leaves.length feeds) = stream.course feeds := by
  induction feeds using List.reverseRecOn with
  | nil => rfl
  | append_singleton feeds feed ih =>
    rw [window_append, window_single, course_snoc]
    by_cases inside : feed.1 < stream.leaves.length
    · have bounds : 0 ≤ feed.1 ∧ feed.1 < 0 + stream.leaves.length := by omega
      rw [if_pos bounds, course_snoc, ih]
      rfl
    · obtain ⟨leaf, incoming⟩ := feed
      obtain ⟨beyond, rfl⟩ := Nat.exists_eq_add_of_le (Nat.not_lt.mp inside)
      have bounds : ¬(0 ≤ stream.leaves.length + beyond ∧
          stream.leaves.length + beyond < 0 + stream.leaves.length) := by omega
      rw [if_neg bounds, List.append_nil, ih, advance, push_beyond]

theorem course_filterMap (f : α → Option β) (source : Stream κ ν ρ α)
    (feeds : List (Nat × Option ν)) :
    (Stream.filterMap f source).course feeds =
      ((source.course feeds).1, (source.course feeds).2.filterMap f) := by
  induction feeds using List.reverseRecOn with
  | nil => rfl
  | append_singleton feeds feed ih =>
    rw [course_snoc, course_snoc, ih]
    unfold advance
    cases h : source.push (source.course feeds).1 feed.1 feed.2 with
    | error beyond =>
      simp only [push_filterMap, h]
      rfl
    | ok pushed =>
      simp only [push_filterMap, h, List.filterMap_append]
      refine Prod.ext rfl ?_
      cases pushed.value with
      | none => simp
      | some value => cases here : f value <;> simp [here]

theorem course_tap (remark : α → ρ) (source : Stream κ ν ρ α) (feeds : List (Nat × Option ν)) :
    (Stream.tap remark source).course feeds = source.course feeds := by
  induction feeds using List.reverseRecOn with
  | nil => rfl
  | append_singleton feeds feed ih =>
    rw [course_snoc, course_snoc, ih]
    unfold advance
    cases h : source.push (source.course feeds).1 feed.1 feed.2 with
    | error beyond =>
      simp only [push_tap, h]
      rfl
    | ok pushed =>
      obtain ⟨after, value, remarks⟩ := pushed
      cases value with
      | none =>
        simp only [push_tap, h]
        rfl
      | some value =>
        simp only [push_tap, h]
        rfl

/-- What is done to the values of a source leaves its state alone. -/
theorem state_filterMap (f : α → Option β) (source : Stream κ ν ρ α)
    (feeds : List (Nat × Option ν)) :
    ((Stream.filterMap f source).course feeds).1 = (source.course feeds).1 :=
  congrArg Prod.fst (course_filterMap f source feeds)

theorem state_tap (remark : α → ρ) (source : Stream κ ν ρ α) (feeds : List (Nat × Option ν)) :
    ((Stream.tap remark source).course feeds).1 = (source.course feeds).1 :=
  congrArg Prod.fst (course_tap remark source feeds)

/-- Leaving out repetitions keeps the last value, which is the one to compare the next with. -/
theorem course_distinct (decEq : DecidableEq α) (source : Stream κ ν ρ α)
    (feeds : List (Nat × Option ν)) :
    ((Stream.distinct decEq source).course feeds).1 =
        (source.last feeds, (source.course feeds).1) ∧
      (Stream.distinct decEq source).last feeds = source.last feeds := by
  unfold last
  induction feeds using List.reverseRecOn with
  | nil => exact ⟨rfl, rfl⟩
  | append_singleton feeds feed ih =>
    obtain ⟨state, ends⟩ := ih
    rw [course_snoc, course_snoc]
    unfold advance
    rw [state]
    cases h : source.push (source.course feeds).1 feed.1 feed.2 with
    | error beyond =>
      simp only [push_distinct, h]
      exact ⟨state, ends⟩
    | ok pushed =>
      obtain ⟨after, value, remarks⟩ := pushed
      cases value with
      | none =>
        simp only [push_distinct, h, Option.toList_none, List.append_nil]
        exact ⟨rfl, ends⟩
      | some value =>
        by_cases same : (source.course feeds).2.getLast? = some value
        · simp only [push_distinct, h, if_pos same, Option.toList_none, List.append_nil]
          exact ⟨by simp [same]; rfl, by simp [ends, same]⟩
        · simp only [push_distinct, h, if_neg same]
          exact ⟨by simp; rfl, by simp⟩

/-- Both sides of a combined stream go their own ways. -/
theorem course_combine (f : α → β → γ) (left : Stream κ ν ρ α) (right : Stream κ ν ρ β)
    (feeds : List (Nat × Option ν)) :
    ((Stream.combine f left right).course feeds).1 =
        ((left.last (window 0 left.leaves.length feeds),
            right.last (window left.leaves.length right.leaves.length feeds)),
          (left.course (window 0 left.leaves.length feeds)).1,
          (right.course (window left.leaves.length right.leaves.length feeds)).1) ∧
      (Stream.combine f left right).last feeds =
        (left.last (window 0 left.leaves.length feeds)).bind fun a =>
          (right.last (window left.leaves.length right.leaves.length feeds)).map (f a) := by
  induction feeds using List.reverseRecOn with
  | nil => exact ⟨rfl, rfl⟩
  | append_singleton feeds feed ih =>
    obtain ⟨state, ends⟩ := ih
    obtain ⟨leaf, incoming⟩ := feed
    generalize lefts_eq : window 0 left.leaves.length feeds = lefts at state ends
    generalize rights_eq : window left.leaves.length right.leaves.length feeds = rights at state ends
    rw [window_append, window_append, lefts_eq, rights_eq, window_single, window_single]
    unfold last at state ends ⊢
    rw [course_snoc]
    unfold advance
    rw [state]
    by_cases inner : leaf < left.leaves.length
    · have outer : ¬left.leaves.length ≤ leaf := by omega
      have inner' : 0 ≤ leaf ∧ leaf < 0 + left.leaves.length := by omega
      rw [if_pos inner', if_neg (fun h => outer h.1), List.append_nil, course_snoc]
      unfold advance
      obtain ⟨⟨after, value, remarks⟩, h⟩ := left.push_within (left.course lefts).1 inner incoming
      cases value with
      | none =>
        simp only [push_combine, Nat.sub_zero, h, Option.toList_none, List.append_nil]
        exact ⟨rfl, ends⟩
      | some a =>
        simp only [push_combine, Nat.sub_zero, h, Option.toList_some, List.getLast?_concat]
        refine ⟨rfl, ?_⟩
        cases other : (right.course rights).2.getLast? with
        | none => simpa [other] using ends
        | some b => simp
    · obtain ⟨more, rfl⟩ := Nat.exists_eq_add_of_le (Nat.not_lt.mp inner)
      have inner' : ¬(0 ≤ left.leaves.length + more ∧
          left.leaves.length + more < 0 + left.leaves.length) := by omega
      rw [if_neg inner', List.append_nil, Nat.add_sub_cancel_left]
      by_cases there : more < right.leaves.length
      · have outer : left.leaves.length ≤ left.leaves.length + more ∧
            left.leaves.length + more < left.leaves.length + right.leaves.length := by omega
        rw [if_pos outer, course_snoc]
        unfold advance
        obtain ⟨⟨after, value, remarks⟩, h⟩ :=
          right.push_within (right.course rights).1 there incoming
        cases value with
        | none =>
          simp only [push_combine, push_beyond, h, Option.toList_none, List.append_nil]
          exact ⟨rfl, ends⟩
        | some b =>
          simp only [push_combine, push_beyond, h, Option.toList_some, List.getLast?_concat]
          refine ⟨rfl, ?_⟩
          cases other : (left.course lefts).2.getLast? with
          | none => simpa [other] using ends
          | some a => simp
      · have outer : ¬(left.leaves.length ≤ left.leaves.length + more ∧
            left.leaves.length + more < left.leaves.length + right.leaves.length) := by omega
        obtain ⟨beyond, rfl⟩ := Nat.exists_eq_add_of_le (Nat.not_lt.mp there)
        rw [if_neg outer, List.append_nil]
        simp only [push_combine, push_beyond]
        exact ⟨state, ends⟩

@[simp] theorem last_map (f : α → β) (source : Stream κ ν ρ α) (feeds : List (Nat × Option ν)) :
    (source.map f).last feeds = (source.last feeds).map f := by
  rw [map, last, course_filterMap, List.filterMap_eq_map', List.getLast?_map]
  rfl

@[simp] theorem last_tap (remark : α → ρ) (source : Stream κ ν ρ α)
    (feeds : List (Nat × Option ν)) : (Stream.tap remark source).last feeds = source.last feeds :=
  congrArg (·.2.getLast?) (course_tap remark source feeds)

@[simp] theorem last_distinct (decEq : DecidableEq α) (source : Stream κ ν ρ α)
    (feeds : List (Nat × Option ν)) :
    (Stream.distinct decEq source).last feeds = source.last feeds :=
  (course_distinct decEq source feeds).2

theorem last_combine (f : α → β → γ) (left : Stream κ ν ρ α) (right : Stream κ ν ρ β)
    (feeds : List (Nat × Option ν)) :
    (Stream.combine f left right).last feeds =
      (left.last (window 0 left.leaves.length feeds)).bind fun a =>
        (right.last (window left.leaves.length right.leaves.length feeds)).map (f a) :=
  (course_combine f left right feeds).2

/-- A constant has its value as soon as a subscription begins. -/
theorem last_constant (value : α) {feeds : List (Nat × Option ν)} (fed : (0, none) ∈ feeds) :
    (Stream.constant value : Stream κ ν ρ α).last feeds = some value := by
  unfold last
  induction feeds using List.reverseRecOn with
  | nil => exact nomatch fed
  | append_singleton feeds feed ih =>
    rw [course_snoc]
    obtain ⟨leaf, incoming⟩ := feed
    cases leaf with
    | zero => simp [advance, push_constant]
    | succ leaf =>
      have before : (0, none) ∈ feeds := by simpa using fed
      simpa [advance, push_constant_beyond] using ih before

/-- How often something stands in for a value at the first leaf, before the first one comes in. -/
def standIns : List (Nat × Option ν) → Nat
  | [] => 0
  | (0, some _) :: _ => 0
  | (1, _) :: rest => standIns rest + 1
  | _ :: rest => standIns rest

theorem standIns_snoc (feeds : List (Nat × Option ν)) (feed : Nat × Option ν) :
    standIns (feeds ++ [feed]) =
      standIns feeds + if valuesAt 0 feeds = [] ∧ feed.1 = 1 then 1 else 0 := by
  induction feeds with
  | nil =>
    obtain ⟨leaf, incoming⟩ := feed
    match leaf, incoming with
    | 0, none => rfl
    | 0, some _ => rfl
    | 1, _ => rfl
    | more + 2, _ => rfl
  | cons first rest ih =>
    obtain ⟨leaf, incoming⟩ := first
    match leaf, incoming with
    | 0, none => exact ih
    | 0, some _ => simp [standIns, valuesAt]
    | 1, _ => exact (congrArg (· + 1) ih).trans (Nat.add_right_comm _ _ 1)
    | more + 2, _ => exact ih

section Property

variable (fallback : α) {source : Stream κ ν ρ α} {g : ν → α}

/-- What comes of a source that passes on its one value, and of the value that stands in for it. -/
theorem course_property_eq (one : source.leaves.length = 1)
    (passes : ∀ state incoming, ∃ after remarks,
      source.push state 0 incoming = .ok ⟨after, incoming.map g, remarks⟩)
    (feeds : List (Nat × Option ν)) :
    ((Stream.property fallback source).course feeds).1.1 = !(valuesAt 0 feeds).isEmpty ∧
      ((Stream.property fallback source).course feeds).2 =
        List.replicate (standIns feeds) fallback ++ (valuesAt 0 feeds).map g := by
  have beyond (state : source.State) (leaf : Nat) (incoming : Option ν) :
      source.push state (leaf + 1) incoming = .error leaf := by
    rw [Nat.add_comm, ← one, push_beyond]
  induction feeds using List.reverseRecOn with
  | nil => exact ⟨rfl, rfl⟩
  | append_singleton feeds feed ih =>
    obtain ⟨known, emitted⟩ := ih
    rw [course_snoc, valuesAt_append, standIns_snoc]
    unfold advance
    generalize (Stream.property fallback source).course feeds = before at known emitted ⊢
    obtain ⟨⟨seen, state⟩, values⟩ := before
    obtain rfl : seen = !(valuesAt 0 feeds).isEmpty := known
    obtain rfl : values = _ := emitted
    obtain ⟨leaf, incoming⟩ := feed
    match leaf with
    | 0 =>
      obtain ⟨after, remarks, h⟩ := passes state incoming
      cases incoming <;> simp [push_property, h, valuesAt]
    | 1 =>
      cases seen : valuesAt 0 feeds with
      | nil => simp [push_property, beyond, valuesAt, List.replicate_succ']
      | cons value values => simp [push_property, beyond, valuesAt]
    | more + 2 => simp [push_property, beyond, valuesAt]

/--
A value that stands in for a missing one is passed on before the others, and only if nothing has
come in before it.
-/
theorem course_property (source : Stream κ ν ρ α) (g : ν → α) (one : source.leaves.length = 1)
    (passes : ∀ state incoming, ∃ after remarks,
      source.push state 0 incoming = .ok ⟨after, incoming.map g, remarks⟩)
    (feeds : List (Nat × Option ν)) :
    ∃ times, ((Stream.property fallback source).course feeds).2 =
        List.replicate times fallback ++ (valuesAt 0 feeds).map g ∧
      (∀ value, feeds.head? = some (0, some value) → times = 0) ∧
      (feeds.head? = some (1, none) → 0 < times) := by
  refine ⟨standIns feeds, (course_property_eq fallback one passes feeds).2, fun value first => ?_,
    fun first => ?_⟩
  · obtain ⟨rest, rfl⟩ := List.head?_eq_some_iff.mp first
    rfl
  · obtain ⟨rest, rfl⟩ := List.head?_eq_some_iff.mp first
    exact Nat.succ_pos _

end Property

end Switchboard.Stream
