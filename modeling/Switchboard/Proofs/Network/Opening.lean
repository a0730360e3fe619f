import Switchboard.Proofs.Network.Recording

/-!
# How subscriptions are opened

Opening a subscription goes over its leaves from left to right. Each leaf at a
subject is attached once, and each own value is supplied once. Where an own
value stands right after a subject, it comes in before anything else does if
the subject has no value then, and after the value of the subject otherwise.
-/
namespace Switchboard

variable {κ ν ρ σ : Type} [DecidableEq κ]

open Event

namespace Event

omit [DecidableEq κ] in
/-- What has been let in at a leaf and at the one after it. -/
def feedsAt (subscription leaf : Nat) (events : List (Event κ ν)) : List (Nat × Option ν) :=
  (feeds subscription events).filter fun feed => feed.1 = leaf ∨ feed.1 = leaf + 1

omit [DecidableEq κ] in
theorem feedsAt_append (subscription leaf : Nat) (before after : List (Event κ ν)) :
    feedsAt subscription leaf (before ++ after) =
      feedsAt subscription leaf before ++ feedsAt subscription leaf after := by
  simp [feedsAt]

omit [DecidableEq κ] in
theorem currents_feedEvents (network : Network κ ν ρ σ) (subscription leaf : Nat)
    (incoming : Option ν) (s l : Nat) :
    currents s l (network.feedEvents subscription leaf incoming) = [] := by
  obtain ⟨calls, h⟩ := network.feedEvents_eq subscription leaf incoming
  simp [h, currents]

end Event

namespace Network

/-- What has come in first at a subject's leaf that has an own value next to it. -/
def First (stack : List (Frame κ ν ρ σ)) (subscription leaf : Nat)
    (taken : List (Nat × Option ν)) : Option ν → Prop
  | some value => taken.head? = some (leaf, some value)
  | none => taken.head? = some (leaf + 1, none) ∨
      taken = [] ∧ ∃ leaves go rest,
        stack = .opening subscription (leaf + 1) (.own :: leaves) go :: rest

omit [DecidableEq κ] in
/-- What has come in first stays first. -/
theorem First.append {stack stack' : List (Frame κ ν ρ σ)} {subscription leaf : Nat}
    {taken : List (Nat × Option ν)} {current : Option ν}
    (first : First stack subscription leaf taken current) (some_in : taken ≠ [])
    (more : List (Nat × Option ν)) : First stack' subscription leaf (taken ++ more) current := by
  have same : (taken ++ more).head? = taken.head? := by
    cases taken with
    | nil => exact absurd rfl some_in
    | cons => rfl
  cases current with
  | some value => exact same.trans first
  | none =>
    rcases first with first | ⟨nothing, _⟩
    · exact .inl (same.trans first)
    · exact absurd nothing some_in

omit [DecidableEq κ] in
/-- Unless an own value is about to be supplied there, something has come in. -/
theorem First.nonempty {frame : Frame κ ν ρ σ} {rest : List (Frame κ ν ρ σ)}
    {subscription leaf : Nat} {taken : List (Nat × Option ν)} {current : Option ν}
    (first : First (frame :: rest) subscription leaf taken current)
    (other : ∀ leaves go, frame ≠ .opening subscription (leaf + 1) (.own :: leaves) go) :
    taken ≠ [] := by
  rintro rfl
  cases current with
  | some value => exact nomatch first
  | none =>
    rcases first with first | ⟨_, leaves, go, below, top⟩
    · exact nomatch first
    · exact other leaves go (List.cons.inj top).1

/-- The leaves that openings have passed agree with the events. -/
structure Opened (events : List (Event κ ν)) (network : Network κ ν ρ σ)
    (stack : List (Frame κ ν ρ σ)) : Prop where
  unreached : ∀ s l, network.Untouched stack s l →
    currents s l events = [] ∧ ∀ feed ∈ feeds s events, feed.1 ≠ l
  attached : ∀ s l key, network.leafAt s l = some (.subject key) →
    network.Untouched stack s l ∨ ∃ current, currents s l events = [current]
  supplied : ∀ s l, network.leafAt s l = some .own →
    network.Untouched stack s l ∨ (l, none) ∈ feeds s events
  first : ∀ s l key current, network.leafAt s l = some (.subject key) →
    network.leafAt s (l + 1) = some .own → currents s l events = [current] →
    First stack s l (feedsAt s l events) current

namespace Accounted

variable {events : List (Event κ ν)} {network next : Network κ ν ρ σ}
variable {rest : List (Frame κ ν ρ σ)}

/-- A step of an opening frame: of all leaves only that one is not untouched any more. -/
theorem untouched_iff {subscription leaf : Nat} {leaf₀ : Leaf κ} {leaves : List (Leaf κ)}
    {go : Script κ ν ρ σ} {woken : List (Script κ ν ρ σ)}
    (accounted : Accounted events network (.opening subscription leaf (leaf₀ :: leaves) go :: rest))
    (keeps : network.Keeps next)
    (length : next.subscriptions.length = network.subscriptions.length) (s l : Nat) :
    next.Untouched
        (woken.map .script ++ [.opening subscription (leaf + 1) leaves go] ++ rest) s l ↔
      network.Untouched (.opening subscription leaf (leaf₀ :: leaves) go :: rest) s l ∧
        ¬(subscription = s ∧ leaf = l) := by
  refine ⟨accounted.untouched_of_opening keeps, ?_⟩
  rintro ⟨beyond | ⟨reached, left, go', member, le⟩, other⟩
  · exact .inl (by omega)
  · rcases List.mem_cons.mp member with same | member
    · injection same with here there
      subst here
      refine .inr ⟨leaf + 1, leaves, go, ?_, by omega⟩
      simp
    · exact .inr ⟨reached, left, go', by simp [member], le⟩

/-- What comes in first at a leaf that has just been attached, with an own value next to it. -/
theorem first_attached {subscription leaf : Nat} {leaf₀ : Leaf κ} {leaves : List (Leaf κ)}
    {go : Script κ ν ρ σ} {woken : List (Script κ ν ρ σ)} {current : Option ν}
    (accounted : Accounted events network (.opening subscription leaf (leaf₀ :: leaves) go :: rest))
    (beside : network.leafAt subscription (leaf + 1) = some .own)
    (asleep : current = none → woken = []) :
    First (woken.map .script ++ [.opening subscription (leaf + 1) leaves go] ++ rest)
      subscription leaf (current.toList.map fun value => (leaf, some value)) current := by
  cases current with
  | some value => rfl
  | none =>
    have next_leaf : leaves[0]? = some .own := (accounted.leafAt_opening 1).symm.trans beside
    obtain ⟨more, rfl⟩ : ∃ more, leaves = .own :: more := by
      cases leaves with
      | nil => exact nomatch next_leaf
      | cons head more => exact ⟨more, by rw [Option.some.inj next_leaf]⟩
    exact .inr ⟨rfl, more, go, rest, by rw [asleep rfl]; rfl⟩

end Accounted

namespace Opened

variable {events es : List (Event κ ν)} {network next : Network κ ν ρ σ}
variable {frame : Frame κ ν ρ σ} {frames rest : List (Frame κ ν ρ σ)}

omit [DecidableEq κ] in
theorem start (memory : σ) (program : Script κ ν ρ σ) :
    Opened [] (Network.start memory) [.script program] where
  unreached _ _ _ := ⟨rfl, fun _ h => nomatch h⟩
  attached _ _ _ h := nomatch h
  supplied _ _ h := nomatch h
  first _ _ _ _ h := nomatch h

omit [DecidableEq κ] in
/-- Nothing has been let in at two leaves that were not reached. -/
theorem feedsAt_unreached {stack : List (Frame κ ν ρ σ)} (opened : Opened events network stack)
    {s l : Nat} (here : network.Untouched stack s l) (beside : network.Untouched stack s (l + 1)) :
    feedsAt s l events = [] := by
  refine List.filter_eq_nil_iff.mpr fun feed member => ?_
  simp [(opened.unreached s l here).2 feed member, (opened.unreached s (l + 1) beside).2 feed member]

omit [DecidableEq κ] in
/-- Steps that come to no new leaf. -/
theorem calm (frames : List (Frame κ ν ρ σ)) (opened : Opened events network (frame :: rest))
    (places : ∀ s, (∀ l, next.leafAt s l = network.leafAt s l) ∨
      ∀ l, next.Untouched (frames ++ rest) s l)
    (earlier : ∀ s l, next.Untouched (frames ++ rest) s l →
      network.Untouched (frame :: rest) s l)
    (still : ∀ s l, network.leafAt s l ≠ none → network.Untouched (frame :: rest) s l →
      next.Untouched (frames ++ rest) s l)
    (no_current : ∀ s l, currents s l es = [])
    (touched : ∀ s, ∀ feed ∈ feeds s es, ¬network.Untouched (frame :: rest) s feed.1)
    (other : ∀ s l leaves go, frame ≠ .opening s l (.own :: leaves) go) :
    Opened (events ++ es) next (frames ++ rest) := by
  have same (s l : Nat) : currents s l (events ++ es) = currents s l events := by
    rw [currents_append, no_current, List.append_nil]
  refine ⟨?_, ?_, ?_, ?_⟩
  · intro s l h
    have before := earlier s l h
    refine ⟨(same s l).trans (opened.unreached s l before).1, fun feed member => ?_⟩
    rw [feeds_append, List.mem_append] at member
    rcases member with member | member
    · exact (opened.unreached s l before).2 feed member
    · rintro rfl
      exact touched s feed member before
  · intro s l key h
    rcases places s with place | untouched
    · rw [place] at h
      rw [same]
      exact (opened.attached s l key h).imp_left (still s l (by simp [h]))
    · exact .inl (untouched l)
  · intro s l h
    rcases places s with place | untouched
    · rw [place] at h
      rw [feeds_append, List.mem_append]
      exact (opened.supplied s l h).imp (still s l (by simp [h])) .inl
    · exact .inl (untouched l)
  · intro s l key current here beside attached
    rw [same] at attached
    rcases places s with place | untouched
    · rw [place] at here beside
      have first := opened.first s l key current here beside attached
      rw [feedsAt_append]
      exact first.append (first.nonempty fun leaves go => other s (l + 1) leaves go) _
    · have never := (opened.unreached s l (earlier s l (untouched l))).1
      rw [never] at attached
      exact nomatch attached

/-- A leaf is attached to its subject. -/
theorem attach {key : κ} {subscription leaf : Nat} {leaves : List (Leaf κ)}
    {go : Script κ ν ρ σ} (woken : List (Script κ ν ρ σ)) {current : Option ν}
    (opened : Opened events network
      (.opening subscription leaf (.subject key :: leaves) go :: rest))
    (accounted : Accounted events network
      (.opening subscription leaf (.subject key :: leaves) go :: rest))
    (keeps : network.Keeps next)
    (length : next.subscriptions.length = network.subscriptions.length)
    (places : ∀ s l, next.leafAt s l = network.leafAt s l)
    (no_current : ∀ s l, currents s l es = [])
    (fed : ∀ s, feeds s es =
      if subscription = s then current.toList.map fun value => (leaf, some value) else [])
    (asleep : current = none → woken = []) :
    Opened (events ++ .attached ⟨key, subscription, leaf⟩ current :: es) next
      (woken.map .script ++ [.opening subscription (leaf + 1) leaves go] ++ rest) := by
  have leaf_here : network.leafAt subscription leaf = some (.subject key) :=
    accounted.leafAt_opening 0
  have untouched (l : Nat) (le : leaf ≤ l) :
      network.Untouched (.opening subscription leaf (.subject key :: leaves) go :: rest)
        subscription l :=
    .inr ⟨leaf, _, go, List.mem_cons_self, le⟩
  have currents_eq (s l : Nat) :
      currents s l (events ++ .attached ⟨key, subscription, leaf⟩ current :: es) =
        currents s l events ++ if subscription = s ∧ leaf = l then [current] else [] := by
    rw [currents_append, currents_cons, no_current, List.append_nil]
    by_cases here : subscription = s ∧ leaf = l <;> simp [currents, here]
  have feeds_eq (s : Nat) :
      feeds s (events ++ .attached ⟨key, subscription, leaf⟩ current :: es) =
        feeds s events ++
          if subscription = s then current.toList.map fun value => (leaf, some value) else [] := by
    rw [feeds_append, ← fed s]
    rfl
  refine ⟨?_, ?_, ?_, ?_⟩
  · intro s l h
    obtain ⟨before, other⟩ := (accounted.untouched_iff keeps length s l).mp h
    obtain ⟨never, unfed⟩ := opened.unreached s l before
    refine ⟨by rw [currents_eq, never, if_neg other]; rfl, fun feed member => ?_⟩
    rw [feeds_eq, List.mem_append] at member
    rcases member with member | member
    · exact unfed feed member
    · split at member
      · rename_i here
        obtain ⟨value, _, rfl⟩ := List.mem_map.mp member
        exact fun same => other ⟨here, same⟩
      · cases member
  · intro s l key' h
    rw [places] at h
    rw [accounted.untouched_iff keeps length, currents_eq]
    by_cases here : subscription = s ∧ leaf = l
    · obtain ⟨rfl, rfl⟩ := here
      refine .inr ⟨current, ?_⟩
      simp [(opened.unreached subscription leaf (untouched leaf (Nat.le_refl _))).1]
    · rw [if_neg here, List.append_nil]
      exact (opened.attached s l key' h).imp_left fun before => ⟨before, here⟩
  · intro s l h
    rw [places] at h
    have apart : ¬(subscription = s ∧ leaf = l) := by
      rintro ⟨rfl, rfl⟩
      cases leaf_here.symm.trans h
    rw [accounted.untouched_iff keeps length, feeds_eq, List.mem_append]
    exact (opened.supplied s l h).imp (fun before => ⟨before, apart⟩) .inl
  · intro s l key' current' here beside attached
    rw [places] at here beside
    rw [currents_eq] at attached
    by_cases same : subscription = s ∧ leaf = l
    · obtain ⟨rfl, rfl⟩ := same
      have before := untouched leaf (Nat.le_refl _)
      obtain rfl : current = current' := by
        simpa [(opened.unreached subscription leaf before).1] using attached
      have none_before := opened.feedsAt_unreached before (untouched (leaf + 1) (Nat.le_succ _))
      have taken : feedsAt subscription leaf
          (events ++ .attached ⟨key, subscription, leaf⟩ current :: es) =
            current.toList.map fun value => (leaf, some value) := by
        rw [feedsAt, feeds_eq, List.filter_append, ← feedsAt, none_before]
        cases current <;> simp
      rw [taken]
      exact accounted.first_attached beside asleep
    · rw [if_neg same, List.append_nil] at attached
      have first := opened.first s l key' current' here beside attached
      have unchanged : feedsAt s l
          (events ++ .attached ⟨key, subscription, leaf⟩ current :: es) =
            feedsAt s l events ++ (if subscription = s then
              current.toList.map fun value => (leaf, some value) else []).filter
                fun feed => feed.1 = l ∨ feed.1 = l + 1 := by
        rw [feedsAt, feeds_eq, List.filter_append, ← feedsAt]
      rw [unchanged]
      exact first.append (first.nonempty fun leaves go => by simp) _

/-- An own value is supplied. -/
theorem supply {subscription leaf : Nat} {leaves : List (Leaf κ)}
    {go : Script κ ν ρ σ} {woken : List (Script κ ν ρ σ)}
    (opened : Opened events network (.opening subscription leaf (.own :: leaves) go :: rest))
    (accounted : Accounted events network (.opening subscription leaf (.own :: leaves) go :: rest))
    (keeps : network.Keeps next)
    (length : next.subscriptions.length = network.subscriptions.length)
    (places : ∀ s l, next.leafAt s l = network.leafAt s l)
    (no_current : ∀ s l, currents s l es = [])
    (fed : ∀ s, feeds s es = if subscription = s then [(leaf, none)] else []) :
    Opened (events ++ es) next
      (woken.map .script ++ [.opening subscription (leaf + 1) leaves go] ++ rest) := by
  have leaf_here : network.leafAt subscription leaf = some .own := accounted.leafAt_opening 0
  have currents_eq (s l : Nat) : currents s l (events ++ es) = currents s l events := by
    rw [currents_append, no_current, List.append_nil]
  refine ⟨?_, ?_, ?_, ?_⟩
  · intro s l h
    obtain ⟨before, other⟩ := (accounted.untouched_iff keeps length s l).mp h
    obtain ⟨never, unfed⟩ := opened.unreached s l before
    refine ⟨by rw [currents_eq, never], fun feed member => ?_⟩
    rw [feeds_append, fed, List.mem_append] at member
    rcases member with member | member
    · exact unfed feed member
    · split at member
      · rename_i here
        obtain rfl := List.mem_singleton.mp member
        exact fun same => other ⟨here, same⟩
      · exact nomatch member
  · intro s l key h
    rw [places] at h
    have apart : ¬(subscription = s ∧ leaf = l) := by
      rintro ⟨rfl, rfl⟩
      exact nomatch leaf_here.symm.trans h
    rw [accounted.untouched_iff keeps length, currents_eq]
    exact (opened.attached s l key h).imp_left fun before => ⟨before, apart⟩
  · intro s l h
    rw [places] at h
    rw [accounted.untouched_iff keeps length, feeds_append, fed, List.mem_append]
    by_cases here : subscription = s ∧ leaf = l
    · obtain ⟨rfl, rfl⟩ := here
      exact .inr (.inr (by simp))
    · exact (opened.supplied s l h).imp (fun before => ⟨before, here⟩) .inl
  · intro s l key current here beside attached
    rw [places] at here beside
    rw [currents_eq] at attached
    have first := opened.first s l key current here beside attached
    rw [feedsAt_append]
    by_cases same : subscription = s ∧ leaf = l + 1
    · obtain ⟨rfl, rfl⟩ := same
      have supplied : feedsAt subscription l es = [(l + 1, none)] := by
        simp [feedsAt, fed]
      by_cases nothing : feedsAt subscription l events = []
      · rw [nothing] at first ⊢
        rw [supplied]
        cases current with
        | some value => exact nomatch first
        | none => exact .inl rfl
      · exact first.append nothing _
    · refine first.append (first.nonempty fun leaves go there => same ?_) _
      injection there with there there'
      exact ⟨there, there'⟩

omit [DecidableEq κ] in
/-- Steps of frames other than openings come to no new leaf. -/
theorem outside (frames : List (Frame κ ν ρ σ)) (opened : Opened events network (frame :: rest))
    (same : ∀ s l, next.leafAt s l = network.leafAt s l)
    (length : next.subscriptions.length = network.subscriptions.length)
    (off : frame.opens? = none) (others : ∀ f ∈ frames, f.opens? = none)
    (no_current : ∀ s l, currents s l es = [])
    (touched : ∀ s, ∀ feed ∈ feeds s es, ¬network.Untouched (frame :: rest) s feed.1) :
    Opened (events ++ es) next (frames ++ rest) := by
  refine opened.calm _ (fun s => .inl (same s)) (fun s l h => h.of_next _ (by omega) others)
    (fun s l _ h => h.next length off) no_current touched ?_
  rintro s l leaves go rfl
  exact nomatch off

/-- One step keeps openings and events in agreement. -/
theorem step (opened : Opened events network (frame :: rest))
    (accounted : Accounted events network (frame :: rest))
    (transition : Transition network frame es next frames) :
    Opened (events ++ es) next (frames ++ rest) := by
  have keeps := transition.keeps
  have same_leaf (same : next.subscriptions = network.subscriptions) (s l : Nat) :
      next.leafAt s l = network.leafAt s l := by
    unfold leafAt
    rw [same]
  cases transition with
  | aside goes subjects subscriptions =>
    exact opened.outside _ (same_leaf subscriptions) (by rw [subscriptions]) rfl
      (List.forall_mem_map.mpr fun _ _ => rfl) (fun _ _ => rfl)
      (fun _ _ h => absurd h List.not_mem_nil)
  | queued =>
    exact opened.outside [_] (same_leaf rfl) rfl rfl (by simp [Frame.opens?])
      (fun _ _ => rfl) (fun _ _ h => absurd h List.not_mem_nil)
  | begun =>
    exact opened.outside [_] (same_leaf rfl) rfl rfl (by simp [Frame.opens?])
      (fun _ _ => rfl) (fun _ _ h => absurd h List.not_mem_nil)
  | @subscribed α stream listener go =>
    refine opened.calm [_] ?_ (fun _ _ => .of_subscribed) ?_ (fun _ _ => rfl)
      (fun _ _ h => absurd h List.not_mem_nil) (fun _ _ _ _ => by simp)
    · intro s
      by_cases old : s < network.subscriptions.length
      · exact .inl fun l => by simp [leafAt, List.getElem?_append_left old]
      · by_cases new : s = network.subscriptions.length
        · subst new
          exact .inr fun l => .inr ⟨0, _, _, List.mem_cons_self, Nat.zero_le l⟩
        · exact .inr fun l => .inl (by simp; omega)
    · intro s l there untouched
      rcases untouched with beyond | ⟨reached, leaves, go', member, le⟩
      · exact absurd (by simp [leafAt, List.getElem?_eq_none beyond]) there
      · rcases List.mem_cons.mp member with same | member
        · cases same
        · exact .inr ⟨reached, leaves, go', List.mem_append_right _ member, le⟩
  | @detached registrations =>
    refine opened.outside [_] (same_leaf (network.detach_subscriptions _))
      (by rw [network.detach_subscriptions]) rfl (by simp [Frame.opens?])
      (fun _ _ => List.filterMap_eq_nil_iff.mpr fun e member => ?_)
      (fun _ _ h => ?_)
    · obtain ⟨_, _, rfl⟩ := List.mem_map.mp member
      rfl
    · obtain ⟨e, member, same⟩ := List.mem_filterMap.mp h
      obtain ⟨_, _, rfl⟩ := List.mem_map.mp member
      cases same
  | @delivered key value subscription leaf waiting audience go woken wakes =>
    refine opened.outside _ (by simp) (by simp) rfl (forall_woken (fun _ => rfl) woken rfl)
      (currents_feedEvents _ _ _ _) fun s feed member untouched => ?_
    -- The value is still on its way, so that the leaf has been attached.
    rw [feeds_feedEvents] at member
    split at member
    · rename_i here
      subst here
      obtain rfl := List.mem_singleton.mp member
      have even := accounted.even subscription leaf
      rw [accounted.untouched subscription leaf untouched] at even
      simp [Frame.pending] at even
    · cases member
  | resumed =>
    exact opened.outside [_] (same_leaf rfl) rfl rfl (by simp [Frame.opens?])
      (fun _ _ => rfl) (fun _ _ h => absurd h List.not_mem_nil)
  | finished =>
    exact opened.outside [_] (same_leaf rfl) rfl rfl (by simp [Frame.opens?])
      (fun _ _ => rfl) (fun _ _ h => absurd h List.not_mem_nil)
  | attached silent =>
    exact opened.attach [] accounted keeps rfl (same_leaf rfl) (fun _ _ => rfl)
      (fun _ => by simp [feeds]) (fun _ => rfl)
  | @replayed key subscription leaf leaves go value woken current wakes =>
    refine opened.attach _ accounted keeps (by simp [Network.attach, setSubject]) ?_
      (currents_feedEvents _ _ _ _) (feeds_feedEvents _ _ _ _) (fun silent => by cases silent)
    intro s l
    rw [feed_leafAt]
    rfl
  | supplied =>
    exact opened.supply accounted keeps (by simp) (by simp) (currents_feedEvents _ _ _ _)
      (feeds_feedEvents _ _ _ _)
  | @opened subscription leaf go =>
    refine opened.calm [_] (fun s => .inl fun l => rfl)
      (fun s l h => h.of_next [_] (Nat.le_refl _) (by simp [Frame.opens?])) ?_
      (fun _ _ => rfl) (fun _ _ h => absurd h List.not_mem_nil) (fun _ _ _ _ => by simp)
    rintro s l there (beyond | ⟨reached, leaves, go', member, le⟩)
    · exact .inl beyond
    · rcases List.mem_cons.mp member with same | member
      · injection same with here there' none_left
        subst here there' none_left
        obtain ⟨more, rfl⟩ := Nat.exists_eq_add_of_le le
        exact absurd (accounted.leafAt_opening more) (by simpa using there)
      · exact .inr ⟨reached, leaves, go', List.mem_append_right _ member, le⟩

end Opened

end Network

end Switchboard
