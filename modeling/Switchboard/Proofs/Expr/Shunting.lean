import Switchboard.Expr.Compile

/-!
# How operators wait

The steps in which infix tokens are rearranged, one equation for each part that
a token can play, and what is released from the stack: everything on top that
binds tighter than what arrives. What is held by something loose stays. No
token is lost, and none is doubled: what comes out are the tokens that went in,
without the parentheses.
-/
namespace Switchboard.Expr

universe u

variable {α : Type u}

/-- How tight something that waits binds. -/
def Waiting.binding : Waiting → Nat
  | .parenthesis => 0
  | .operator _ precedence => precedence

/-- What waits on top binds no tighter than a level. -/
def Held (level : Nat) (waiting : List Waiting) : Prop :=
  ∀ first ∈ waiting.head?, first.binding ≤ level

section Holding

variable {level level' precedence : Nat}

theorem held_nil : Held level [] := nofun

/-- Nothing above an open parenthesis reaches below it. -/
theorem held_parenthesis (waiting : List Waiting) : Held level (.parenthesis :: waiting) := by
  rintro _ ⟨⟩
  exact Nat.zero_le level

theorem held_operator (loose : precedence ≤ level) (token : String) (waiting : List Waiting) :
    Held level (.operator token precedence :: waiting) := by
  rintro _ ⟨⟩
  exact loose

theorem Held.mono {waiting : List Waiting} (held : Held level waiting) (le : level ≤ level') :
    Held level' waiting :=
  fun first top => Nat.le_trans (held first top) le

end Holding

theorem release_held {level : Nat} {waiting : List Waiting} (held : Held level waiting)
    (done : List String) : release (level < ·) waiting done = ⟨waiting, done⟩ := by
  match waiting with
  | [] => rfl
  | .parenthesis :: waiting => rfl
  | .operator token precedence :: waiting =>
    have loose : precedence ≤ level := held _ rfl
    have stays : ¬(decide (level < precedence)) = true := by simpa using loose
    rw [release, if_neg stays]

/-- What is kept when one operator is let go is kept when several are. -/
theorem release_keeps {P : List Waiting → List String → Prop}
    (lets_go : ∀ token precedence waiting done,
      P (.operator token precedence :: waiting) done → P waiting (token :: done))
    (test : Nat → Bool) {waiting : List Waiting} {done : List String} (holds : P waiting done) :
    P (release test waiting done).waiting (release test waiting done).done := by
  induction waiting generalizing done with
  | nil => exact holds
  | cons first waiting ih =>
    cases first with
    | parenthesis => exact holds
    | operator token precedence =>
      rw [release]
      split
      · exact ih (lets_go token precedence waiting done holds)
      · exact holds

/-- What is let go first is let go anyway. -/
theorem release_release {test test' : Nat → Bool} (weaker : ∀ p, test p = true → test' p = true)
    (waiting : List Waiting) (done : List String) :
    release test' (release test waiting done).waiting (release test waiting done).done =
      release test' waiting done := by
  induction waiting generalizing done with
  | nil => rfl
  | cons first waiting ih =>
    cases first with
    | parenthesis => rfl
    | operator token precedence =>
      rw [release]
      by_cases goes : test precedence = true
      · rw [if_pos goes, ih]
        exact (if_pos (weaker precedence goes)).symm
      · rw [if_neg goes]

theorem shuntAll_append {table : Table α} {state middle : Shunting}
    {tokens : List String} (first : table.shuntAll state tokens = .ok middle)
    (tokens' : List String) : table.shuntAll state (tokens ++ tokens') = table.shuntAll middle tokens' := by
  induction tokens generalizing state with
  | nil =>
    obtain rfl := Except.ok.inj first
    rfl
  | cons token tokens ih =>
    rw [Table.shuntAll] at first
    rw [List.cons_append, Table.shuntAll]
    split at first
    · exact ih first
    · cases first

/-- Operators that wait one above the other, with their precedences. -/
def inLine (pending : List (String × Nat)) : List Waiting :=
  pending.map fun entry => .operator entry.1 entry.2

theorem inLine_cons (entry : String × Nat) (pending : List (String × Nat)) :
    inLine (entry :: pending) = .operator entry.1 entry.2 :: inLine pending := rfl

theorem inLine_snoc (pending : List (String × Nat)) (token : String) (precedence : Nat)
    (waiting : List Waiting) :
    inLine (pending ++ [(token, precedence)]) ++ waiting =
      inLine pending ++ .operator token precedence :: waiting := by
  rw [inLine, List.map_append, List.append_assoc]
  rfl

/-- Operators that are let go come out in reverse. -/
theorem release_inLine {test : Nat → Bool} {pending : List (String × Nat)}
    (goes : ∀ entry ∈ pending, test entry.2 = true) (waiting : List Waiting) (done : List String) :
    release test (inLine pending ++ waiting) done =
      release test waiting ((pending.map Prod.fst).reverse ++ done) := by
  induction pending generalizing done with
  | nil => rfl
  | cons entry pending ih =>
    obtain ⟨here, goes⟩ := List.forall_mem_cons.mp goes
    rw [inLine_cons, List.cons_append, release, if_pos here, ih goes, List.map_cons,
      List.reverse_cons, List.append_assoc, List.singleton_append]

namespace Table

variable {table : Table α} {token : String}

theorem shunt_operand (role : table.role token = .operand) (state : Shunting) :
    table.shunt state token = .ok { state with done := token :: state.done } := by
  rw [shunt, role]

theorem shunt_operator {operator : Operator α} (role : table.role token = .operator operator)
    (state : Shunting) :
    table.shunt state token =
      .ok ⟨.operator token operator.precedence ::
          (release (operator.precedence < ·) state.waiting state.done).waiting,
        (release (operator.precedence < ·) state.waiting state.done).done⟩ := by
  rw [shunt, role]

theorem role_opening_iff : table.role token = .opening ↔ token = openMark := by
  refine ⟨fun role => ?_, fun opens => if_pos opens⟩
  unfold Table.role at role
  split at role
  · assumption
  · split at role
    · exact nomatch role
    · split at role
      · exact nomatch role
      · exact nomatch role

theorem role_closing_iff : table.role token = .closing ↔ token = closeMark := by
  refine ⟨fun role => ?_, ?_⟩
  · unfold Table.role at role
    split at role
    · exact nomatch role
    · split at role
      · assumption
      · split at role
        · exact nomatch role
        · exact nomatch role
  · rintro rfl
    rw [role, if_neg (by decide), if_pos rfl]

theorem shunt_opening (table : Table α) (state : Shunting) :
    table.shunt state openMark = .ok { state with waiting := .parenthesis :: state.waiting } := by
  rw [shunt, role_opening_iff.mpr rfl]

theorem shunt_closing (table : Table α) {state : Shunting} {waiting : List Waiting}
    {done : List String} (released : release (fun _ => true) state.waiting state.done =
      ⟨.parenthesis :: waiting, done⟩) :
    table.shunt state closeMark = .ok ⟨waiting, done⟩ := by
  rw [shunt, role_closing_iff.mpr rfl]
  simp only [released]

theorem shuntAll_cons {state next : Shunting} (first : table.shunt state token = .ok next)
    (tokens : List String) :
    table.shuntAll state (token :: tokens) = table.shuntAll next tokens := by
  rw [shuntAll, first]

/-- The Polish form is there when nothing waits any more. -/
theorem polish_of_shuntAll {tokens done : List String} {state : Shunting}
    (shunts : table.shuntAll ⟨[], []⟩ tokens = .ok state)
    (released : release (fun _ => true) state.waiting state.done = ⟨[], done⟩) :
    table.polish tokens = .ok done := by
  rw [polish, shunts]
  show state.finish = _
  rw [Shunting.finish, released]

end Table

/-- The operators that wait, from the top of the stack. -/
def onHold : List Waiting → List String
  | [] => []
  | .parenthesis :: waiting => onHold waiting
  | .operator token _ :: waiting => token :: onHold waiting

theorem release_perm (test : Nat → Bool) (waiting : List Waiting) (done : List String) :
    (onHold (release test waiting done).waiting ++ (release test waiting done).done).Perm
      (onHold waiting ++ done) :=
  release_keeps (P := fun waits does => (onHold waits ++ does).Perm (onHold waiting ++ done))
    (fun _ _ _ _ same => List.perm_middle.trans same) test (.refl _)

/-- A token that is no parenthesis. -/
def isSolid (token : String) : Bool := token != openMark && token != closeMark

namespace Table

variable {table : Table α} {token : String} {state next : Shunting}

theorem isSolid_of_role (table : Table α) (open_free : table.role token ≠ .opening)
    (close_free : table.role token ≠ .closing) : isSolid token = true := by
  rw [isSolid, Bool.and_eq_true_iff, bne_iff_ne, bne_iff_ne]
  exact ⟨mt role_opening_iff.mpr open_free, mt role_closing_iff.mpr close_free⟩

/-- A token that is taken into account waits or is done, and all others stay. -/
theorem shunt_perm (shunts : table.shunt state token = .ok next) :
    (onHold next.waiting ++ next.done).Perm
      ([token].filter isSolid ++ (onHold state.waiting ++ state.done)) := by
  unfold shunt at shunts
  split at shunts
  · rename_i role
    obtain rfl := Except.ok.inj shunts
    obtain rfl := role_opening_iff.mp role
    exact .refl _
  · rename_i role
    obtain rfl := role_closing_iff.mp role
    split at shunts
    · rename_i waiting done released
      obtain rfl := Except.ok.inj shunts
      have same := release_perm (fun _ => true) state.waiting state.done
      rw [released] at same
      exact same
    · exact nomatch shunts
  · rename_i operator role
    obtain rfl := Except.ok.inj shunts
    have solid : isSolid token = true :=
      isSolid_of_role table (fun opens => nomatch role.symm.trans opens)
        fun closes => nomatch role.symm.trans closes
    rw [List.filter_cons_of_pos solid]
    exact (release_perm _ state.waiting state.done).cons token
  · rename_i role
    obtain rfl := Except.ok.inj shunts
    have solid : isSolid token = true :=
      isSolid_of_role table (fun opens => nomatch role.symm.trans opens)
        fun closes => nomatch role.symm.trans closes
    rw [List.filter_cons_of_pos solid]
    exact List.perm_middle

theorem shuntAll_perm {tokens : List String} (shunts : table.shuntAll state tokens = .ok next) :
    (onHold next.waiting ++ next.done).Perm
      (tokens.filter isSolid ++ (onHold state.waiting ++ state.done)) := by
  induction tokens generalizing state with
  | nil =>
    obtain rfl := Except.ok.inj shunts
    exact .refl _
  | cons token tokens ih =>
    rw [shuntAll] at shunts
    split at shunts
    · rename_i middle first
      refine (ih shunts).trans (((shunt_perm first).append_left _).trans ?_)
      rw [← List.append_assoc, ← List.singleton_append (l := tokens), List.filter_append]
      exact List.perm_append_comm.append_right _
    · exact nomatch shunts

/-- The Polish form has the tokens of the infix form, without the parentheses. -/
theorem polish_perm {tokens polish : List String} (compiles : table.polish tokens = .ok polish) :
    polish.Perm (tokens.filter isSolid) := by
  unfold Table.polish at compiles
  split at compiles
  · rename_i state shunts
    have same := (release_perm (fun _ => true) state.waiting state.done).trans (shuntAll_perm shunts)
    unfold Shunting.finish at compiles
    split at compiles
    · rename_i done released
      obtain rfl := Except.ok.inj compiles
      rw [released] at same
      exact same.trans (.of_eq (List.append_nil _))
    · exact nomatch compiles
  · exact nomatch compiles

end Table

end Switchboard.Expr
