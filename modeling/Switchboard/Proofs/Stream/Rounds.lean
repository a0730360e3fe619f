import Switchboard.Proofs.Stream.Last

/-!
# Streams read round by round

What a stream says to a subscription can be read off its parts alone. When the
subscription begins, each subject gives its latest value, and at most one value
reaches the top. After that there is a round for every value that is published:
the subjects of its key give it, and the parts of the stream make lists of what
their sources give, one for each round.

A subscription that takes in the values at its leaves one by one, from left to
right, comes to the same.
-/
namespace Switchboard.Stream

variable {κ ν ρ α β γ : Type}

section Reading

/-- The value with which a subscription begins, from the values that the subjects have then. -/
def begins (now : κ → Option ν) : {α : Type} → Stream κ ν ρ α → Option α
  | _, .subject key => now key
  | _, .constant value => some value
  | _, .filterMap f source => (source.begins now).bind f
  | _, .tap _ source => source.begins now
  | _, .renewed _ source => source.begins now
  | _, .property fallback source => some ((source.begins now).getD fallback)
  | _, .combine f left right =>
    (left.begins now).bind fun a => (right.begins now).map fun b => f a b

/-- Values without those that are the same as the last one that was passed on. -/
def fresh (same : α → α → Bool) : Option α → List α → List α
  | _, [] => []
  | passed, value :: later =>
    if passed.any (same · value) then fresh same passed later
    else value :: fresh same (some value) later

def freshRounds (same : α → α → Bool) : Option α → List (List α) → List (List α)
  | _, [] => []
  | passed, round :: later =>
    fresh same passed round ::
      freshRounds same ((fresh same passed round).getLast?.or passed) later

/--
Each new value of the left side with the last one of the right side, and then each new value of the
right side with the last one of the left side.
-/
def jointRounds (f : α → β → γ) : Option α → Option β → List (List α × List β) → List (List γ)
  | _, _, [] => []
  | lastLeft, lastRight, (lefts, rights) :: later =>
    ((lefts.filterMap fun a => lastRight.map (f a)) ++
        rights.filterMap fun b => (lefts.getLast?.or lastLeft).map (f · b)) ::
      jointRounds f (lefts.getLast?.or lastLeft) (rights.getLast?.or lastRight) later

/-- What is given in the rounds of published values after a subscription has begun. -/
def rounds [DecidableEq κ] (now : κ → Option ν) (published : List (κ × ν)) :
    {α : Type} → Stream κ ν ρ α → List (List α)
  | _, .subject key => published.map fun pair => if pair.1 = key then [pair.2] else []
  | _, .constant _ => published.map fun _ => []
  | _, .filterMap f source => (source.rounds now published).map (List.filterMap f)
  | _, .tap _ source => source.rounds now published
  | _, .renewed same source => freshRounds same (source.begins now) (source.rounds now published)
  | _, .property _ source => source.rounds now published
  | _, .combine f left right =>
    jointRounds f (left.begins now) (right.begins now)
      ((left.rounds now published).zip (right.rounds now published))

end Reading

section Absorbing

/-- The state after some values at leaves, and what they have brought to the top. -/
def absorb (stream : Stream κ ν ρ α) (state : stream.State) (feeds : List (Nat × Option ν)) :
    stream.State × List α :=
  feeds.foldl stream.advance (state, [])

variable (feeds more : List (Nat × Option ν))

theorem absorb_snoc (stream : Stream κ ν ρ α) (state : stream.State) (feed : Nat × Option ν) :
    stream.absorb state (feeds ++ [feed]) = stream.advance (stream.absorb state feeds) feed := by
  simp [absorb]

theorem absorb_append (stream : Stream κ ν ρ α) (state : stream.State) :
    stream.absorb state (feeds ++ more) =
      ((stream.absorb (stream.absorb state feeds).1 more).1,
        (stream.absorb state feeds).2 ++ (stream.absorb (stream.absorb state feeds).1 more).2) := by
  induction more using List.reverseRecOn with
  | nil => simp [absorb]
  | append_singleton more feed ih =>
    rw [← List.append_assoc, absorb_snoc, ih, absorb_snoc]
    unfold advance
    cases stream.push (stream.absorb (stream.absorb state feeds).1 more).1 feed.1 feed.2 with
    | error beyond => rfl
    | ok pushed => simp

theorem absorb_filterMap (f : α → Option β) (source : Stream κ ν ρ α) (state : source.State) :
    (filterMap f source).absorb state feeds =
      ((source.absorb state feeds).1, (source.absorb state feeds).2.filterMap f) := by
  induction feeds using List.reverseRecOn with
  | nil => rfl
  | append_singleton feeds feed ih =>
    refine (absorb_snoc feeds (filterMap f source) state feed).trans ?_
    rw [absorb_snoc, ih]
    unfold advance
    simp only [push_filterMap]
    cases source.push (source.absorb state feeds).1 feed.1 feed.2 with
    | error beyond => rfl
    | ok pushed =>
      obtain ⟨after, value, remarks⟩ := pushed
      refine Prod.ext rfl ?_
      rw [List.filterMap_append]
      cases value with
      | none => rfl
      | some value => cases here : f value <;> simp [here]

theorem absorb_tap (remark : α → ρ) (source : Stream κ ν ρ α) (state : source.State) :
    (tap remark source).absorb state feeds = source.absorb state feeds := by
  induction feeds using List.reverseRecOn with
  | nil => rfl
  | append_singleton feeds feed ih =>
    refine (absorb_snoc feeds (tap remark source) state feed).trans ?_
    rw [absorb_snoc, ih]
    unfold advance
    simp only [push_tap]
    cases source.push (source.absorb state feeds).1 feed.1 feed.2 with
    | error beyond => rfl
    | ok pushed =>
      obtain ⟨after, value, remarks⟩ := pushed
      cases value <;> rfl

theorem fresh_snoc (same : α → α → Bool) (passed : Option α) (values : List α) (value : α) :
    fresh same passed (values ++ [value]) = fresh same passed values ++
      if ((fresh same passed values).getLast?.or passed).any (same · value) then []
      else [value] := by
  induction values generalizing passed with
  | nil =>
    show fresh same passed [value] = _
    rw [fresh, fresh]
    rfl
  | cons first values ih =>
    rw [List.cons_append, fresh, fresh]
    split
    · exact ih passed
    · rw [ih, List.cons_append, List.getLast?_cons]
      cases (fresh same (some first) values).getLast? <;> rfl

theorem absorb_renewed (same : α → α → Bool) (source : Stream κ ν ρ α) (passed : Option α)
    (state : source.State) :
    (renewed same source).absorb (passed, state) feeds =
      (((fresh same passed (source.absorb state feeds).2).getLast?.or passed,
        (source.absorb state feeds).1), fresh same passed (source.absorb state feeds).2) := by
  induction feeds using List.reverseRecOn with
  | nil => rfl
  | append_singleton feeds feed ih =>
    refine (absorb_snoc feeds (renewed same source) (passed, state) feed).trans ?_
    rw [absorb_snoc, ih]
    unfold advance
    simp only [push_renewed]
    cases source.push (source.absorb state feeds).1 feed.1 feed.2 with
    | error beyond => rfl
    | ok pushed =>
      obtain ⟨after, value, remarks⟩ := pushed
      cases value with
      | none =>
        simp only [Option.toList_none, List.append_nil]
        rfl
      | some value =>
        simp only [Option.toList_some, fresh_snoc]
        by_cases again :
            ((fresh same passed (source.absorb state feeds).2).getLast?.or passed).any (same · value)
        · simp only [if_pos again, Option.toList_none, List.append_nil]
          rfl
        · simp only [if_neg again, Option.toList_some, List.getLast?_concat, Option.some_or]
          rfl

/--
While nothing comes in at its own leaf, a stream with a value of its own gives what its source
gives.
-/
theorem absorb_property (fallback : α) (source : Stream κ ν ρ α) (seen : Bool)
    (state : source.State) (within : ∀ feed ∈ feeds, feed.1 < source.leaves.length) :
    (property fallback source).absorb (seen, state) feeds =
      ((seen || !(source.absorb state feeds).2.isEmpty, (source.absorb state feeds).1),
        (source.absorb state feeds).2) := by
  induction feeds using List.reverseRecOn with
  | nil =>
    show ((seen, state), []) = _
    rw [absorb]
    simp
  | append_singleton feeds feed ih =>
    obtain ⟨within, here⟩ := List.forall_mem_append.mp within
    obtain ⟨pushed, there⟩ := source.push_within (source.absorb state feeds).1
      (here feed (List.mem_singleton_self feed)) feed.2
    refine (absorb_snoc feeds (property fallback source) (seen, state) feed).trans ?_
    rw [absorb_snoc, ih within]
    unfold advance
    simp only [push_property, there]
    refine Prod.ext (Prod.ext ?_ rfl) rfl
    cases pushed.value <;> simp

/-- The same feeds, for a stream that comes after a number of leaves. -/
def shift (start : Nat) (feeds : List (Nat × Option ν)) : List (Nat × Option ν) :=
  feeds.map fun feed => (start + feed.1, feed.2)

theorem absorb_combine_left (f : α → β → γ) (left : Stream κ ν ρ α) (right : Stream κ ν ρ β)
    (a : Option α) (b : Option β) (state : left.State) (state' : right.State)
    (within : ∀ feed ∈ feeds, feed.1 < left.leaves.length) :
    (combine f left right).absorb ((a, b), state, state') feeds =
      ((((left.absorb state feeds).2.getLast?.or a, b), (left.absorb state feeds).1, state'),
        (left.absorb state feeds).2.filterMap fun a => b.map (f a)) := by
  induction feeds using List.reverseRecOn with
  | nil => rfl
  | append_singleton feeds feed ih =>
    obtain ⟨within, here⟩ := List.forall_mem_append.mp within
    obtain ⟨⟨after, value, remarks⟩, there⟩ := left.push_within (left.absorb state feeds).1
      (here feed (List.mem_singleton_self feed)) feed.2
    refine (absorb_snoc feeds (combine f left right) ((a, b), state, state') feed).trans ?_
    rw [absorb_snoc, ih within]
    unfold advance
    simp only [push_combine, there]
    cases value with
    | none =>
      simp only [Option.toList_none, List.append_nil]
      rfl
    | some a =>
      refine Prod.ext (Prod.ext (Prod.ext ?_ rfl) rfl) ?_
      · simp
      · cases b <;> simp

theorem absorb_combine_right (f : α → β → γ) (left : Stream κ ν ρ α) (right : Stream κ ν ρ β)
    (a : Option α) (b : Option β) (state : left.State) (state' : right.State) :
    (combine f left right).absorb ((a, b), state, state') (shift left.leaves.length feeds) =
      (((a, (right.absorb state' feeds).2.getLast?.or b), state, (right.absorb state' feeds).1),
        (right.absorb state' feeds).2.filterMap fun b => a.map (f · b)) := by
  induction feeds using List.reverseRecOn with
  | nil => rfl
  | append_singleton feeds feed ih =>
    have moved : shift left.leaves.length (feeds ++ [feed]) =
        shift left.leaves.length feeds ++ [(left.leaves.length + feed.1, feed.2)] := by
      simp [shift]
    rw [moved]
    refine (absorb_snoc _ (combine f left right) ((a, b), state, state') _).trans ?_
    rw [absorb_snoc, ih]
    unfold advance
    simp only [push_combine, push_beyond]
    cases right.push (right.absorb state' feeds).1 feed.1 feed.2 with
    | error beyond => rfl
    | ok pushed =>
      obtain ⟨after, value, remarks⟩ := pushed
      cases value with
      | none =>
        simp only [Option.toList_none, List.append_nil]
        rfl
      | some b =>
        refine Prod.ext (Prod.ext (Prod.ext rfl ?_) rfl) ?_
        · simp
        · cases a <;> simp

end Absorbing

section Answers

/-- What each of some batches of feeds brings to the top. -/
def answers (stream : Stream κ ν ρ α) : stream.State → List (List (Nat × Option ν)) → List (List α)
  | _, [] => []
  | state, batch :: later =>
    (stream.absorb state batch).2 :: stream.answers (stream.absorb state batch).1 later

theorem answers_flatten (stream : Stream κ ν ρ α) (state : stream.State)
    (batches : List (List (Nat × Option ν))) :
    (stream.absorb state batches.flatten).2 = (stream.answers state batches).flatten := by
  induction batches generalizing state with
  | nil => rfl
  | cons batch later ih =>
    rw [List.flatten_cons, absorb_append, answers, List.flatten_cons, ih]

theorem answers_filterMap (f : α → Option β) (source : Stream κ ν ρ α) (state : source.State)
    (batches : List (List (Nat × Option ν))) :
    (filterMap f source).answers state batches =
      (source.answers state batches).map (List.filterMap f) := by
  induction batches generalizing state with
  | nil => rfl
  | cons batch later ih =>
    refine List.cons_eq_cons.mpr ⟨?_, ?_⟩
    · rw [absorb_filterMap]
    · rw [absorb_filterMap]
      exact ih _

theorem answers_tap (remark : α → ρ) (source : Stream κ ν ρ α) (state : source.State)
    (batches : List (List (Nat × Option ν))) :
    (tap remark source).answers state batches = source.answers state batches := by
  induction batches generalizing state with
  | nil => rfl
  | cons batch later ih =>
    refine List.cons_eq_cons.mpr ⟨?_, ?_⟩
    · rw [absorb_tap]
    · rw [absorb_tap]
      exact ih _

theorem answers_renewed (same : α → α → Bool) (source : Stream κ ν ρ α) (passed : Option α)
    (state : source.State) (batches : List (List (Nat × Option ν))) :
    (renewed same source).answers (passed, state) batches =
      freshRounds same passed (source.answers state batches) := by
  induction batches generalizing passed state with
  | nil => rfl
  | cons batch later ih =>
    refine List.cons_eq_cons.mpr ⟨?_, ?_⟩
    · rw [absorb_renewed]
    · rw [absorb_renewed]
      exact ih _ _

theorem answers_property (fallback : α) (source : Stream κ ν ρ α) (seen : Bool)
    (state : source.State) {batches : List (List (Nat × Option ν))}
    (within : ∀ batch ∈ batches, ∀ feed ∈ batch, feed.1 < source.leaves.length) :
    (property fallback source).answers (seen, state) batches = source.answers state batches := by
  induction batches generalizing seen state with
  | nil => rfl
  | cons batch later ih =>
    obtain ⟨here, within⟩ := List.forall_mem_cons.mp within
    refine List.cons_eq_cons.mpr ⟨?_, ?_⟩
    · rw [absorb_property batch fallback source seen state here]
    · rw [absorb_property batch fallback source seen state here]
      exact ih _ _ within

theorem answers_combine (f : α → β → γ) (left : Stream κ ν ρ α) (right : Stream κ ν ρ β)
    (a : Option α) (b : Option β) (state : left.State) (state' : right.State)
    {batches : List (List (Nat × Option ν) × List (Nat × Option ν))}
    (within : ∀ batch ∈ batches, ∀ feed ∈ batch.1, feed.1 < left.leaves.length) :
    (combine f left right).answers ((a, b), state, state')
        (batches.map fun batch => batch.1 ++ shift left.leaves.length batch.2) =
      jointRounds f a b ((left.answers state (batches.map Prod.fst)).zip
        (right.answers state' (batches.map Prod.snd))) := by
  induction batches generalizing a b state state' with
  | nil => rfl
  | cons batch later ih =>
    obtain ⟨here, within⟩ := List.forall_mem_cons.mp within
    have both := absorb_append batch.1 (shift left.leaves.length batch.2) (combine f left right)
      ((a, b), state, state')
    rw [absorb_combine_left batch.1 f left right a b state state' here, absorb_combine_right] at both
    refine List.cons_eq_cons.mpr ⟨?_, ?_⟩
    · rw [both]
    · rw [both]
      exact ih _ _ _ _ within

end Answers

section Leaves

/-- What comes in at leaves from left to right, by what each of them is. -/
def entering (enter : Leaf κ → Option (Option ν)) : Nat → List (Leaf κ) → List (Nat × Option ν)
  | _, [] => []
  | leaf, first :: leaves =>
    ((enter first).map fun incoming => (leaf, incoming)).toList ++ entering enter (leaf + 1) leaves

variable (enter : Leaf κ → Option (Option ν))

theorem entering_append (start : Nat) (leaves leaves' : List (Leaf κ)) :
    entering enter start (leaves ++ leaves') =
      entering enter start leaves ++ entering enter (start + leaves.length) leaves' := by
  induction leaves generalizing start with
  | nil => rfl
  | cons first leaves ih =>
    rw [List.cons_append, entering, entering, ih, List.append_assoc, List.length_cons,
      Nat.add_assoc, Nat.add_comm 1]

theorem entering_shift (start start' : Nat) (leaves : List (Leaf κ)) :
    entering enter (start + start') leaves = shift start (entering enter start' leaves) := by
  induction leaves generalizing start' with
  | nil => rfl
  | cons first leaves ih =>
    rw [entering, entering, Nat.add_assoc, ih, shift, shift, List.map_append]
    cases enter first <;> rfl

theorem entering_within (start : Nat) (leaves : List (Leaf κ)) :
    ∀ feed ∈ entering enter start leaves, feed.1 < start + leaves.length := by
  induction leaves generalizing start with
  | nil => exact nofun
  | cons first leaves ih =>
    intro feed member
    rw [List.length_cons]
    rcases List.mem_append.mp member with member | member
    · obtain ⟨incoming, _, rfl⟩ := Option.map_eq_some_iff.mp (Option.mem_toList.mp member)
      omega
    · have later := ih (start + 1) feed member
      omega

theorem entering_beyond (start : Nat) (leaves : List (Leaf κ)) :
    ∀ feed ∈ entering enter start leaves, start ≤ feed.1 := by
  induction leaves generalizing start with
  | nil => exact nofun
  | cons first leaves ih =>
    intro feed member
    rcases List.mem_append.mp member with member | member
    · obtain ⟨incoming, _, rfl⟩ := Option.map_eq_some_iff.mp (Option.mem_toList.mp member)
      exact Nat.le_refl start
    · exact Nat.le_of_succ_le (ih (start + 1) feed member)

/-- The leaves come one after the other. -/
theorem entering_ordered (start : Nat) (leaves : List (Leaf κ)) :
    (entering enter start leaves).Pairwise fun feed later => feed.1 < later.1 := by
  induction leaves generalizing start with
  | nil => exact .nil
  | cons first leaves ih =>
    refine List.pairwise_append.mpr ⟨?_, ih (start + 1), fun feed member later there => ?_⟩
    · cases enter first with
      | none => exact .nil
      | some incoming => exact List.pairwise_singleton _ _
    · obtain ⟨incoming, _, rfl⟩ := Option.map_eq_some_iff.mp (Option.mem_toList.mp member)
      exact entering_beyond enter (start + 1) leaves later there

/-- What comes in at a leaf is said by the leaf alone. -/
theorem mem_entering (start : Nat) (leaves : List (Leaf κ)) (leaf : Nat) (incoming : Option ν) :
    (start + leaf, incoming) ∈ entering enter start leaves ↔
      leaves[leaf]?.bind enter = some incoming := by
  induction leaves generalizing start leaf with
  | nil => simp [entering]
  | cons first leaves ih =>
    rw [entering, List.mem_append, Option.mem_toList, Option.map_eq_some_iff]
    cases leaf with
    | zero =>
      have never : (start, incoming) ∉ entering enter (start + 1) leaves := by
        intro member
        exact Nat.not_succ_le_self start (entering_beyond enter (start + 1) leaves _ member)
      rw [Nat.add_zero, or_iff_left never]
      simp
    | succ leaf =>
      have later := ih (start + 1) leaf
      rw [Nat.add_assoc, Nat.add_comm 1] at later
      simp [later]

/-- When a subscription begins, a subject gives its latest value, if it has one. -/
def opening (now : κ → Option ν) : Leaf κ → Option (Option ν)
  | .subject key => (now key).map some
  | .own => some none

/-- When a value is published, the subjects of its key give it. -/
def visit [DecidableEq κ] (pair : κ × ν) (leaf : Leaf κ) : Option (Option ν) :=
  if leaf = .subject pair.1 then some (some pair.2) else none

end Leaves

section Agreement

/-- A subscription takes in what its leaves have to say when it begins. -/
def opened (stream : Stream κ ν ρ α) (now : κ → Option ν) : stream.State × List α :=
  stream.absorb stream.initial (entering (opening now) 0 stream.leaves)

theorem opened_subject (key : κ) (now : κ → Option ν) :
    ((subject key : Stream κ ν ρ ν).opened now).2 = (now key).toList := by
  rw [opened, leaves, entering, entering, opening]
  cases now key <;> rfl

theorem opened_filterMap (f : α → Option β) (source : Stream κ ν ρ α) (now : κ → Option ν) :
    (filterMap f source).opened now =
      ((source.opened now).1, (source.opened now).2.filterMap f) :=
  absorb_filterMap _ f source source.initial

theorem opened_tap (remark : α → ρ) (source : Stream κ ν ρ α) (now : κ → Option ν) :
    (tap remark source).opened now = source.opened now :=
  absorb_tap _ remark source source.initial

theorem opened_renewed (same : α → α → Bool) (source : Stream κ ν ρ α) (now : κ → Option ν) :
    (renewed same source).opened now =
      (((fresh same none (source.opened now).2).getLast?.or none, (source.opened now).1),
        fresh same none (source.opened now).2) :=
  absorb_renewed _ same source none source.initial

/-- The value of its own comes last, and only if the source has given nothing. -/
theorem opened_property (fallback : α) (source : Stream κ ν ρ α) (now : κ → Option ν) :
    (property fallback source).opened now =
      ((!(source.opened now).2.isEmpty, (source.opened now).1),
        (source.opened now).2 ++ if (source.opened now).2.isEmpty then [fallback] else []) := by
  have within := entering_within (opening now) 0 source.leaves
  rw [Nat.zero_add] at within
  have split : entering (opening now) 0 (property fallback source).leaves =
      entering (opening now) 0 source.leaves ++ [(source.leaves.length, none)] := by
    rw [leaves, entering_append, Nat.zero_add]
    rfl
  have beyond := source.push_beyond (source.opened now).1 0 none
  rw [Nat.add_zero] at beyond
  refine (congrArg (absorb _ _) split).trans ?_
  refine (absorb_snoc _ (property fallback source) (false, source.initial) _).trans ?_
  rw [absorb_property _ fallback source false source.initial within]
  unfold advance
  simp only [push_property]
  unfold opened at beyond ⊢
  rw [beyond]
  cases (source.absorb source.initial (entering (opening now) 0 source.leaves)).2 <;> rfl

/-- A combined stream begins with what both sides begin with. -/
theorem opened_combine (f : α → β → γ) (left : Stream κ ν ρ α) (right : Stream κ ν ρ β)
    (now : κ → Option ν) :
    (combine f left right).opened now =
      ((((left.opened now).2.getLast?.or none, (right.opened now).2.getLast?.or none),
        (left.opened now).1, (right.opened now).1),
        ((left.opened now).2.filterMap fun _ => none) ++
          (right.opened now).2.filterMap fun b =>
            ((left.opened now).2.getLast?.or none).map (f · b)) := by
  have within := entering_within (opening now) 0 left.leaves
  rw [Nat.zero_add] at within
  have split : entering (opening now) 0 (combine f left right).leaves =
      entering (opening now) 0 left.leaves ++
        shift left.leaves.length (entering (opening now) 0 right.leaves) := by
    rw [leaves, entering_append, Nat.zero_add, ← entering_shift, Nat.add_zero]
  have both := absorb_append (entering (opening now) 0 left.leaves)
    (shift left.leaves.length (entering (opening now) 0 right.leaves)) (combine f left right)
    ((none, none), left.initial, right.initial)
  rw [absorb_combine_left _ f left right none none left.initial right.initial within,
    absorb_combine_right] at both
  exact (congrArg (absorb _ _) split).trans both

/-- A subscription begins with the value that is read off its parts. -/
theorem opened_values (stream : Stream κ ν ρ α) (now : κ → Option ν) :
    (stream.opened now).2 = (stream.begins now).toList := by
  induction stream with
  | subject key => exact opened_subject key now
  | constant value => rfl
  | filterMap f source ih =>
    rw [opened_filterMap, ih, begins]
    cases source.begins now with
    | none => rfl
    | some value => cases here : f value <;> simp [here]
  | tap remark source ih => rw [opened_tap, ih, begins]
  | renewed same source ih =>
    rw [opened_renewed, ih, begins]
    cases source.begins now <;> rfl
  | property fallback source ih =>
    rw [opened_property, ih, begins]
    cases source.begins now <;> rfl
  | combine f left right ih ih' =>
    rw [opened_combine, ih, ih', begins]
    cases left.begins now with
    | none => cases right.begins now <;> rfl
    | some a => cases right.begins now <;> rfl

variable [DecidableEq κ]

/-- The feeds of published values, a batch for each. -/
def visits (stream : Stream κ ν ρ α) (published : List (κ × ν)) : List (List (Nat × Option ν)) :=
  published.map fun pair => entering (visit pair) 0 stream.leaves

theorem visits_property (fallback : α) (source : Stream κ ν ρ α) (published : List (κ × ν)) :
    (property fallback source).visits published = source.visits published := by
  refine List.map_congr_left fun pair _ => ?_
  rw [leaves, entering_append]
  exact List.append_nil _

theorem visits_within (stream : Stream κ ν ρ α) (published : List (κ × ν)) :
    ∀ batch ∈ stream.visits published, ∀ feed ∈ batch, feed.1 < stream.leaves.length := by
  intro batch member
  obtain ⟨pair, _, rfl⟩ := List.mem_map.mp member
  have within := entering_within (visit pair) 0 stream.leaves
  rw [Nat.zero_add] at within
  exact within

theorem answers_subject (key : κ) (state : (subject key : Stream κ ν ρ ν).State)
    (published : List (κ × ν)) :
    (subject key).answers state ((subject key : Stream κ ν ρ ν).visits published) =
      published.map fun pair => if pair.1 = key then [pair.2] else [] := by
  induction published with
  | nil => rfl
  | cons pair later ih =>
    refine List.cons_eq_cons.mpr ⟨?_, ih⟩
    show ((subject key).absorb state (entering (visit pair) 0 [.subject key])).2 =
      if pair.1 = key then [pair.2] else []
    rw [entering, entering, visit]
    by_cases here : pair.1 = key
    · rw [if_pos here, if_pos (by rw [here])]
      rfl
    · have other : (Leaf.subject key : Leaf κ) ≠ .subject pair.1 := by
        rintro ⟨⟩
        exact here rfl
      rw [if_neg here, if_neg other]
      rfl

theorem answers_constant (value : α) (state : (constant value : Stream κ ν ρ α).State)
    (published : List (κ × ν)) :
    (constant value).answers state ((constant value : Stream κ ν ρ α).visits published) =
      published.map fun _ => [] := by
  induction published with
  | nil => rfl
  | cons pair later ih => exact List.cons_eq_cons.mpr ⟨rfl, ih⟩

theorem visits_combine (f : α → β → γ) (left : Stream κ ν ρ α) (right : Stream κ ν ρ β)
    (published : List (κ × ν)) :
    (combine f left right).visits published =
      (published.map fun pair =>
        (entering (visit pair) 0 left.leaves, entering (visit pair) 0 right.leaves)).map
          fun batch => batch.1 ++ shift left.leaves.length batch.2 := by
  rw [List.map_map]
  refine List.map_congr_left fun pair _ => ?_
  rw [leaves, entering_append, Nat.zero_add]
  exact congrArg _ (entering_shift (visit pair) left.leaves.length 0 right.leaves)

theorem getLast?_toList (value : Option α) : value.toList.getLast?.or none = value := by
  cases value <;> rfl

/-- What the rounds bring to the top is read off the parts of the stream. -/
theorem answers_visits (stream : Stream κ ν ρ α) (now : κ → Option ν) (published : List (κ × ν)) :
    stream.answers (stream.opened now).1 (stream.visits published) =
      stream.rounds now published := by
  induction stream with
  | subject key => exact answers_subject key _ published
  | constant value => exact answers_constant value _ published
  | filterMap f source ih =>
    rw [opened_filterMap, rounds, ← ih]
    exact answers_filterMap f source _ _
  | tap remark source ih =>
    rw [opened_tap, rounds, ← ih]
    exact answers_tap remark source _ _
  | renewed same source ih =>
    rw [opened_renewed, rounds, ← ih, opened_values]
    refine (answers_renewed same source _ _ _).trans ?_
    cases source.begins now <;> rfl
  | property fallback source ih =>
    rw [opened_property, visits_property, rounds, ← ih]
    exact answers_property fallback source _ _ (source.visits_within published)
  | combine f left right ih ih' =>
    have within : ∀ batch ∈ published.map fun pair =>
        (entering (visit pair) 0 left.leaves, entering (visit pair) 0 right.leaves),
        ∀ feed ∈ batch.1, feed.1 < left.leaves.length := by
      intro batch member
      obtain ⟨pair, there, rfl⟩ := List.mem_map.mp member
      exact left.visits_within published _ (List.mem_map_of_mem there)
    rw [opened_combine, opened_values, opened_values, visits_combine, rounds, ← ih, ← ih']
    refine (answers_combine f left right _ _ _ _ within).trans ?_
    rw [getLast?_toList, getLast?_toList, List.map_map, List.map_map]
    rfl

/-- All that a subscription passes on, from its beginning through the rounds. -/
theorem course_rounds (stream : Stream κ ν ρ α) (now : κ → Option ν) (published : List (κ × ν)) :
    (stream.course (entering (opening now) 0 stream.leaves ++ (stream.visits published).flatten)).2 =
      (stream.begins now).toList ++ (stream.rounds now published).flatten := by
  have whole := absorb_append (entering (opening now) 0 stream.leaves)
    (stream.visits published).flatten stream stream.initial
  rw [course, ← absorb, whole, ← opened, answers_flatten, answers_visits, opened_values]

end Agreement

end Switchboard.Stream
