import Mathlib.Data.List.TakeWhile
import Switchboard.Proofs.Network.Traffic

/-!
# What is due to the leaves of subscriptions

From the moment a leaf is attached to a subject, the subject owes it the value
it has then and every value that sets out before the leaf is detached. The
account of a leaf keeps what is owed, read off the events alone. In a run the
account is always even: what the leaf has taken in, and the one value that may
still be on its way to it, are together what is due, in the same order.
-/
namespace Switchboard

variable {κ ν ρ σ : Type}

/-- The subject that a leaf is attached to, and what it was due since it was attached. -/
structure Account (κ ν : Type) where
  line : Option κ
  due : List ν

namespace Event

def received? (subscription leaf : Nat) : Event κ ν → Option ν
  | .fed s l (some value) => if s = subscription ∧ l = leaf then some value else none
  | _ => none

/-- The values that have been let into a subscription at a leaf. -/
def received (subscription leaf : Nat) (events : List (Event κ ν)) : List ν :=
  events.filterMap (received? subscription leaf)

theorem received_cons (subscription leaf : Nat) (event : Event κ ν)
    (events : List (Event κ ν)) :
    received subscription leaf (event :: events) =
      (received? subscription leaf event).toList ++ received subscription leaf events := by
  unfold received
  cases h : received? subscription leaf event with
  | none => simp [h]
  | some value => simp [h]

@[simp] theorem received_append (subscription leaf : Nat) (before after : List (Event κ ν)) :
    received subscription leaf (before ++ after) =
      received subscription leaf before ++ received subscription leaf after := by
  simp [received]

variable [DecidableEq κ]

/-- An event, as the account of a leaf sees it. -/
def enter (subscription leaf : Nat) (account : Account κ ν) : Event κ ν → Account κ ν
  | .attached registration current =>
    if registration.subscription = subscription ∧ registration.leaf = leaf then
      ⟨some registration.subject, current.toList⟩
    else account
  | .setOut key value =>
    if account.line = some key then ⟨account.line, account.due ++ [value]⟩ else account
  | .detached registration =>
    if account.line = some registration.subject ∧ registration.subscription = subscription ∧
        registration.leaf = leaf then
      ⟨none, account.due⟩
    else account
  | .published .. | .subscribed _ | .fed .. | .called .. => account

/-- The account of a leaf after some events. -/
def account (subscription leaf : Nat) (events : List (Event κ ν)) : Account κ ν :=
  events.foldl (enter subscription leaf) ⟨none, []⟩

theorem account_append (subscription leaf : Nat) (before after : List (Event κ ν)) :
    account subscription leaf (before ++ after) =
      after.foldl (enter subscription leaf) (account subscription leaf before) :=
  List.foldl_append

/-- Taking registrations back closes the account of those among them, and pays nothing. -/
theorem enter_detached (subscription leaf : Nat) (registrations : List (Registration κ))
    (before : Account κ ν) :
    (registrations.map Event.detached).foldl (enter subscription leaf) before =
      ⟨before.line.filter fun key =>
        decide (⟨key, subscription, leaf⟩ ∉ registrations), before.due⟩ := by
  induction registrations generalizing before with
  | nil =>
    obtain ⟨line, due⟩ := before
    cases line <;> simp [Option.filter]
  | cons registration rest ih =>
    obtain ⟨place, s, l⟩ := registration
    rw [List.map_cons, List.foldl_cons, ih]
    cases h : before.line with
    | none => simp [enter, h]
    | some key =>
      by_cases here : key = place ∧ s = subscription ∧ l = leaf
      · obtain ⟨rfl, rfl, rfl⟩ := here
        simp [enter, h, Option.filter]
      · have other : ¬(before.line = some place ∧ s = subscription ∧ l = leaf) := by
          rw [h]
          simpa using here
        have apart : ¬(key = place ∧ subscription = s ∧ leaf = l) := by
          rintro ⟨rfl, rfl, rfl⟩
          exact here ⟨rfl, rfl, rfl⟩
        simp [enter, h, here, apart, Option.filter]

/-- Being fed changes no account. -/
theorem enter_feedEvents (network : Network κ ν ρ σ) (s l : Nat) (incoming : Option ν)
    (subscription leaf : Nat) (before : Account κ ν) :
    (network.feedEvents s l incoming).foldl (enter subscription leaf) before = before := by
  obtain ⟨calls, h⟩ := network.feedEvents_eq s l incoming
  rw [h, List.foldl_cons]
  clear h
  induction calls with
  | nil => rfl
  | cons call calls ih => exact ih

section Stay

/-- Whether an event takes a registration back. -/
def detaches (registration : Registration κ) : Event κ ν → Bool
  | .detached other => decide (other = registration)
  | _ => false

theorem detaches_iff {registration : Registration κ} {event : Event κ ν} :
    event.detaches registration = true ↔ event = .detached registration := by
  cases event <;> simp [detaches]

/-- The events before a registration is taken back. -/
def stay (registration : Registration κ) (events : List (Event κ ν)) : List (Event κ ν) :=
  events.takeWhile fun event => !event.detaches registration

theorem stay_cons (registration : Registration κ) (event : Event κ ν)
    (events : List (Event κ ν)) :
    stay registration (event :: events) =
      if event.detaches registration then [] else event :: stay registration events := by
  by_cases leaves : event.detaches registration = true <;> simp [stay, leaves]

/-- A registration that is not taken back stays for all that happens. -/
theorem stay_eq {registration : Registration κ} {events : List (Event κ ν)}
    (stays : .detached registration ∉ events) : stay registration events = events :=
  List.takeWhile_eq_self_iff.mpr fun event member => by
    have kept : ¬event.detaches registration := fun leaves =>
      stays (detaches_iff.mp leaves ▸ member)
    simpa using kept

omit [DecidableEq κ] in
/-- The values that a subject had whenever a leaf was attached to it. -/
def currents (subscription leaf : Nat) (events : List (Event κ ν)) : List (Option ν) :=
  events.filterMap fun event =>
    match event with
    | .attached registration current =>
      if registration.subscription = subscription ∧ registration.leaf = leaf then some current
      else none
    | _ => none

omit [DecidableEq κ] in
@[simp] theorem currents_append (subscription leaf : Nat) (before after : List (Event κ ν)) :
    currents subscription leaf (before ++ after) =
      currents subscription leaf before ++ currents subscription leaf after := by
  simp [currents]

omit [DecidableEq κ] in
theorem currents_cons (subscription leaf : Nat) (event : Event κ ν)
    (events : List (Event κ ν)) :
    currents subscription leaf (event :: events) =
      currents subscription leaf [event] ++ currents subscription leaf events :=
  currents_append subscription leaf [event] events

omit [DecidableEq κ] in
/-- Where a leaf that was attached once was attached. -/
theorem split_currents {events : List (Event κ ν)} {s l : Nat} {current : Option ν}
    (once : currents s l events = [current]) :
    ∃ past registration later, events = past ++ .attached registration current :: later ∧
      registration.subscription = s ∧ registration.leaf = l ∧ currents s l past = [] ∧
      currents s l later = [] := by
  obtain ⟨past, event, later, rfl, before, here, after⟩ := List.filterMap_eq_cons_iff.mp once
  cases event with
  | attached registration value =>
    by_cases same : registration.subscription = s ∧ registration.leaf = l
    · obtain rfl : value = current := by simpa [same] using here
      exact ⟨past, registration, later, rfl, same.1, same.2,
        List.filterMap_eq_nil_iff.mpr before, after⟩
    · simp [same] at here
  | _ => exact nomatch here

section Split

variable {before after past later : List (Event κ ν)} {registration : Registration κ}
variable {current : Option ν}

omit [DecidableEq κ] in
theorem not_mem_of_unattached {events : List (Event κ ν)}
    (never : currents registration.subscription registration.leaf events = []) :
    .attached registration current ∉ events :=
  fun member => nomatch (List.filterMap_eq_nil_iff.mp never _ member).symm.trans (if_pos ⟨rfl, rfl⟩)

omit [DecidableEq κ] in
/-- Where a leaf was not attached before, it was attached after that. -/
theorem split_after (split : before ++ after = past ++ .attached registration current :: later)
    (never : currents registration.subscription registration.leaf before = []) :
    ∃ more, past = before ++ more ∧ after = more ++ .attached registration current :: later := by
  rcases Network.append_split split with ⟨more, rfl, -⟩ | found
  · exact absurd (List.mem_append_right past List.mem_cons_self) (not_mem_of_unattached never)
  · exact found

omit [DecidableEq κ] in
/-- Where a leaf was not attached after something, it was attached before that. -/
theorem split_before (split : before ++ after = past ++ .attached registration current :: later)
    (never : currents registration.subscription registration.leaf after = []) :
    ∃ more, before = past ++ .attached registration current :: more ∧ later = more ++ after := by
  rcases Network.append_split split with found | ⟨more, -, rfl⟩
  · exact found
  · exact absurd (List.mem_append_right more List.mem_cons_self) (not_mem_of_unattached never)

end Split

/-- An account that is closed stays so at an event that attaches nothing to it. -/
theorem enter_closed {subscription leaf : Nat} {event : Event κ ν}
    (unattached : currents subscription leaf [event] = []) (due : List ν) :
    enter subscription leaf ⟨none, due⟩ event = ⟨none, due⟩ := by
  cases event with
  | attached registration current =>
    have other : ¬(registration.subscription = subscription ∧ registration.leaf = leaf) := by
      intro same
      simp [currents, same] at unattached
    simp [enter, other]
  | _ => rfl

/-- An open account at an event that attaches nothing to it: it is closed, or takes what sets out. -/
theorem enter_open {subscription leaf : Nat} (key : κ) {event : Event κ ν}
    (unattached : currents subscription leaf [event] = []) (due : List ν) :
    enter subscription leaf ⟨some key, due⟩ event =
      if event.detaches ⟨key, subscription, leaf⟩ then ⟨none, due⟩
      else ⟨some key, due ++ valuesAt key (sent? event).toList⟩ := by
  cases event with
  | attached registration current =>
    have other : ¬(registration.subscription = subscription ∧ registration.leaf = leaf) := by
      intro same
      simp [currents, same] at unattached
    simp [enter, other, detaches, sent?]
  | setOut place value =>
    by_cases same : place = key
    · simp [enter, detaches, sent?, same]
    · simp [enter, detaches, sent?, same, Ne.symm same]
  | detached registration =>
    by_cases same : registration = ⟨key, subscription, leaf⟩
    · simp [enter, detaches, same]
    · have other : ¬(key = registration.subject ∧ registration.subscription = subscription ∧
          registration.leaf = leaf) := by
        rintro ⟨rfl, rfl, rfl⟩
        exact same rfl
      simp [enter, detaches, same, other, sent?]
  | _ => simp [enter, detaches, sent?]

/-- An account that is closed is not opened again by events that attach nothing to it. -/
theorem account_closed {subscription leaf : Nat} {events : List (Event κ ν)}
    (never : currents subscription leaf events = []) (due : List ν) :
    events.foldl (enter subscription leaf) ⟨none, due⟩ = ⟨none, due⟩ := by
  induction events with
  | nil => rfl
  | cons event rest ih =>
    rw [currents_cons] at never
    obtain ⟨here, later⟩ := List.append_eq_nil_iff.mp never
    rw [List.foldl_cons, enter_closed here, ih later]

/-- What an open account is due: all that sets out as long as the leaf stays. -/
theorem account_open {subscription leaf : Nat} (key : κ) {events : List (Event κ ν)}
    (once : currents subscription leaf events = []) (due : List ν) :
    (events.foldl (enter subscription leaf) ⟨some key, due⟩).due =
      due ++ departures key (stay ⟨key, subscription, leaf⟩ events) := by
  induction events generalizing due with
  | nil => simp [stay]
  | cons event rest ih =>
    rw [currents_cons] at once
    obtain ⟨here, later⟩ := List.append_eq_nil_iff.mp once
    rw [List.foldl_cons, enter_open key here, stay_cons]
    split
    case isTrue => rw [account_closed later, departures_nil, List.append_nil]
    case isFalse => rw [ih later, departures_cons, List.append_assoc]

/-- An open account stays open exactly as long as the leaf is not taken back. -/
theorem line_open_iff {subscription leaf : Nat} {key place : κ} {events : List (Event κ ν)}
    (once : currents subscription leaf events = []) (due : List ν) :
    (events.foldl (enter subscription leaf) ⟨some key, due⟩).line = some place ↔
      place = key ∧ .detached ⟨key, subscription, leaf⟩ ∉ events := by
  induction events generalizing due with
  | nil => simp [eq_comm]
  | cons event rest ih =>
    rw [currents_cons] at once
    obtain ⟨here, later⟩ := List.append_eq_nil_iff.mp once
    rw [List.foldl_cons, enter_open key here]
    split
    case isTrue leaves => simp [account_closed later, detaches_iff.mp leaves]
    case isFalse stays =>
      have other : .detached ⟨key, subscription, leaf⟩ ≠ event :=
        fun same => stays (detaches_iff.mpr same.symm)
      rw [ih later, List.mem_cons, not_or, and_iff_right other]

end Stay

end Event

open Event

theorem Network.received_feedEvents (network : Network κ ν ρ σ) (s l : Nat)
    (incoming : Option ν) (subscription leaf : Nat) :
    received subscription leaf (network.feedEvents s l incoming) =
      if s = subscription ∧ l = leaf then incoming.toList else [] := by
  obtain ⟨calls, h⟩ := network.feedEvents_eq s l incoming
  have silent : received subscription leaf
      (calls.map (Event.called (κ := κ) (ν := ν) s)) = [] := by
    simp [received, received?]
  rw [h, received_cons, silent]
  cases incoming with
  | none => simp [received?]
  | some value => by_cases here : s = subscription ∧ l = leaf <;> simp [received?, here]

namespace Frame

/-- The value that a frame still has for a leaf. -/
def pending (subscription leaf : Nat) : Frame κ ν ρ σ → List ν
  | .fanOut _ value waiting _ _ => if (subscription, leaf) ∈ waiting then [value] else []
  | .script _ | .opening .. => []

/-- A frame fits a network: leaves that it names are there, and each is named once. -/
def Fits (network : Network κ ν ρ σ) : Frame κ ν ρ σ → Prop
  | .fanOut key _ waiting _ _ =>
    waiting.Nodup ∧
      ∀ subscription leaf, (subscription, leaf) ∈ waiting →
        network.leafAt subscription leaf = some (.subject key)
  | .opening subscription leaf leaves _ =>
    ∃ s, network.subscriptions[subscription]? = some s ∧ s.stream.leaves.drop leaf = leaves
  | .script _ => True

def opens? : Frame κ ν ρ σ → Option Nat
  | .opening subscription .. => some subscription
  | .script _ | .fanOut .. => none

end Frame

/-- The values that are on their way to a leaf. -/
def pending (subscription leaf : Nat) (stack : List (Frame κ ν ρ σ)) : List ν :=
  stack.flatMap (Frame.pending subscription leaf)

@[simp] theorem pending_nil (subscription leaf : Nat) :
    pending subscription leaf ([] : List (Frame κ ν ρ σ)) = [] := rfl

@[simp] theorem pending_append (subscription leaf : Nat) (above below : List (Frame κ ν ρ σ)) :
    pending subscription leaf (above ++ below) =
      pending subscription leaf above ++ pending subscription leaf below := by
  simp [pending]

@[simp] theorem pending_cons (subscription leaf : Nat) (frame : Frame κ ν ρ σ)
    (rest : List (Frame κ ν ρ σ)) :
    pending subscription leaf (frame :: rest) =
      frame.pending subscription leaf ++ pending subscription leaf rest := by
  simp [pending]

@[simp] theorem pending_scripts (subscription leaf : Nat) (scripts : List (Script κ ν ρ σ)) :
    pending subscription leaf (scripts.map (Frame.script (κ := κ) (ν := ν))) = [] := by
  simp [pending, Frame.pending]

/-- The subscriptions that are being opened. -/
def openings (stack : List (Frame κ ν ρ σ)) : List Nat := stack.filterMap Frame.opens?

@[simp] theorem openings_append (above below : List (Frame κ ν ρ σ)) :
    openings (above ++ below) = openings above ++ openings below := by
  simp [openings]

@[simp] theorem openings_scripts (scripts : List (Script κ ν ρ σ)) :
    openings (scripts.map (Frame.script (κ := κ) (ν := ν))) = [] := by
  simp [openings, Frame.opens?]

@[simp] theorem openings_script (script : Script κ ν ρ σ) (rest : List (Frame κ ν ρ σ)) :
    openings (.script script :: rest) = openings rest := rfl

@[simp] theorem openings_fanOut (key : κ) (value : ν) (waiting : List (Nat × Nat))
    (audience : Nat) (go : Nat → Script κ ν ρ σ) (rest : List (Frame κ ν ρ σ)) :
    openings (.fanOut key value waiting audience go :: rest) = openings rest := rfl

@[simp] theorem openings_opening (subscription leaf : Nat) (leaves : List (Leaf κ))
    (go : Script κ ν ρ σ) (rest : List (Frame κ ν ρ σ)) :
    openings (.opening subscription leaf leaves go :: rest) = subscription :: openings rest :=
  rfl

end Switchboard
