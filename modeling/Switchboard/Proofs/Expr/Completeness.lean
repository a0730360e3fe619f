import Mathlib.Data.List.Chain
import Switchboard.Proofs.Expr.Counting
import Switchboard.Proofs.Expr.Skipping

/-!
# Which expressions have a complete Polish form

A unary operator stands before its operand, and all the same it lets go of
what waits and binds tighter. What is let go in this way takes values that are
done already: its own right operand has not come yet. There are as many values
as the operators that wait are short of, so one is missing if no binary
operator keeps waiting below. Then the Polish form is spoilt, whatever follows.

Every other step keeps the count, and every expression is rearranged without
loss. So its Polish form is that of a tree, with a value from both sides,
exactly when each unary operator that comes finds nothing tighter on top or
leaves a binary operator waiting. The first is the case throughout if no unary
operator follows an operator that binds tighter.
-/
namespace Switchboard.Expr

open Switchboard.Text

universe u

variable {α : Type u}

/-- What waits from the innermost open parenthesis on. -/
def enclosing : List Waiting → List Waiting
  | .operator _ _ :: waiting => enclosing waiting
  | waiting => waiting

theorem release_all (waiting : List Waiting) (done : List String) :
    (release (fun _ => true) waiting done).waiting = enclosing waiting := by
  induction waiting generalizing done with
  | nil => rfl
  | cons first waiting ih =>
    cases first with
    | parenthesis => rfl
    | operator token precedence => exact ih (token :: done)

theorem enclosing_release (test : Nat → Bool) (waiting : List Waiting) (done : List String) :
    enclosing (release test waiting done).waiting = enclosing waiting :=
  release_keeps (P := fun waits _ => enclosing waits = enclosing waiting)
    (fun _ _ _ _ same => same) test rfl

/-- What is released leaves the stack from the top and is done. -/
theorem release_suffix (test : Nat → Bool) (waiting : List Waiting) (done : List String) :
    (release test waiting done).waiting <:+ waiting ∧ done <:+ (release test waiting done).done :=
  release_keeps (P := fun waits does => waits <:+ waiting ∧ done <:+ does)
    (fun _ _ _ _ ⟨fewer, more⟩ =>
      ⟨(List.suffix_cons _ _).trans fewer, more.trans (List.suffix_cons _ _)⟩)
    test ⟨List.suffix_rfl, List.suffix_rfl⟩

/-- If nothing leaves the stack, nothing is done. -/
theorem release_done {test : Nat → Bool} {waiting : List Waiting} {done : List String}
    (same : (release test waiting done).waiting = waiting) :
    (release test waiting done).done = done := by
  cases waiting with
  | nil => rfl
  | cons first waiting =>
    cases first with
    | parenthesis => rfl
    | operator token precedence =>
      rw [release] at same ⊢
      split
      · rename_i goes
        rw [if_pos goes] at same
        have fewer := (release_suffix test waiting (token :: done)).1.length_le
        rw [same] at fewer
        exact absurd fewer (Nat.not_succ_le_self _)
      · rfl

/-- What binds tighter than an operator has been let go. -/
def Shunting.released (state : Shunting) (precedence : Nat) : Shunting :=
  release (precedence < ·) state.waiting state.done

/-- An operator waits on top. -/
def Shunting.push (state : Shunting) (token : String) (precedence : Nat) : Shunting :=
  ⟨.operator token precedence :: state.waiting, state.done⟩

namespace Table

variable {table : Table α} {waiting waiting' : List Waiting} {done : List String} {token : String}

/-- How many values more than they give the operators that wait will take. -/
def joints (table : Table α) : List Waiting → Nat
  | [] => 0
  | .parenthesis :: waiting => table.joints waiting
  | .operator token _ :: waiting => table.arity token - 1 + table.joints waiting

/-- What waits are operators of the table. -/
def Genuine (table : Table α) (waiting : List Waiting) : Prop :=
  ∀ token precedence, .operator token precedence ∈ waiting → 1 ≤ table.arity token

theorem Genuine.nil : table.Genuine [] := nofun

theorem Genuine.suffix (genuine : table.Genuine waiting) (suffix : waiting' <:+ waiting) :
    table.Genuine waiting' :=
  fun token precedence member => genuine token precedence (suffix.subset member)

theorem Genuine.opened (genuine : table.Genuine waiting) :
    table.Genuine (.parenthesis :: waiting) := by
  intro token precedence member
  rcases List.mem_cons.mp member with same | member
  · exact nomatch same
  · exact genuine token precedence member

theorem joints_suffix (suffix : waiting' <:+ waiting) :
    table.joints waiting' ≤ table.joints waiting := by
  obtain ⟨above, rfl⟩ := suffix
  induction above with
  | nil => exact Nat.le_refl _
  | cons first above ih =>
    cases first with
    | parenthesis => exact ih
    | operator token precedence => exact Nat.le_trans ih (Nat.le_add_left _ _)

theorem count_suffix {done' : List String} (suffix : done <:+ done')
    (short : table.count done = none) : table.count done' = none := by
  obtain ⟨before, rfl⟩ := suffix
  exact count_append_none short before

/-- An operand has come: whatever is let go finds its operands. -/
theorem count_release (test : Nat → Bool) (genuine : table.Genuine waiting)
    (counted : table.count done = some (table.joints waiting + 1)) :
    table.count (release test waiting done).done =
      some (table.joints (release test waiting done).waiting + 1) := by
  refine (release_keeps (P := fun waits does =>
    table.Genuine waits ∧ table.count does = some (table.joints waits + 1)) ?_ test
      ⟨genuine, counted⟩).2
  rintro token precedence waits does ⟨genuine, counted⟩
  have takes := genuine token precedence List.mem_cons_self
  refine ⟨genuine.suffix (List.suffix_cons _ _), ?_⟩
  rw [count_cons counted, joints, if_pos (by omega)]
  congr 1
  omega

/-- Before an operand has come, an operator is short of a value if none waits for another. -/
theorem count_early (takes : 1 ≤ table.arity token)
    (counted : table.count done = some (table.arity token - 1 + table.joints waiting)) :
    table.count (token :: done) =
      if 0 < table.joints waiting then some (table.joints waiting) else none := by
  rw [count_cons counted]
  by_cases waits : 0 < table.joints waiting
  · rw [if_pos waits, if_pos (by omega)]
    congr 1
    omega
  · rw [if_neg waits, if_neg (by omega)]

/-- What is let go too early finds its operands if something is left that waits for a value. -/
theorem count_release_early {test : Nat → Bool} (genuine : table.Genuine waiting)
    (counted : table.count done = some (table.joints waiting))
    (kept : 0 < table.joints (release test waiting done).waiting) :
    table.count (release test waiting done).done =
      some (table.joints (release test waiting done).waiting) := by
  induction waiting generalizing done with
  | nil => exact counted
  | cons first waiting ih =>
    cases first with
    | parenthesis => exact counted
    | operator token precedence =>
      rw [release] at kept ⊢
      split
      · rename_i goes
        rw [if_pos goes] at kept
        have waits := Nat.lt_of_lt_of_le kept (joints_suffix (release_suffix _ _ _).1)
        have takes := genuine token precedence List.mem_cons_self
        refine ih (genuine.suffix (List.suffix_cons _ _)) ?_ kept
        rw [count_early takes counted, if_pos waits]
      · exact counted

/-- Otherwise the last of what is let go is short of a value. -/
theorem count_release_short {test : Nat → Bool} (genuine : table.Genuine waiting)
    (counted : table.count done = some (table.joints waiting))
    (moves : (release test waiting done).waiting ≠ waiting)
    (spent : ¬0 < table.joints (release test waiting done).waiting) :
    table.count (release test waiting done).done = none := by
  induction waiting generalizing done with
  | nil => exact absurd rfl moves
  | cons first waiting ih =>
    cases first with
    | parenthesis => exact absurd rfl moves
    | operator token precedence =>
      rw [release] at moves spent ⊢
      split
      · rename_i goes
        rw [if_pos goes] at spent
        have takes := genuine token precedence List.mem_cons_self
        have early := count_early takes counted
        by_cases waits : 0 < table.joints waiting
        · rw [if_pos waits] at early
          refine ih (genuine.suffix (List.suffix_cons _ _)) early ?_ spent
          intro same
          rw [same] at spent
          exact spent waits
        · rw [if_neg waits] at early
          exact count_suffix (release_suffix _ _ _).2 early
      · rename_i stays
        rw [if_neg stays] at moves
        exact absurd rfl moves

/-- A unary operator lets nothing go or leaves something that waits for a value. -/
def Supports (table : Table α) (state : Shunting) (token : String) : Prop :=
  ∀ sign : table.Unary, sign.token = token →
    (state.released sign.precedence).waiting = state.waiting ∨
      0 < table.joints (state.released sign.precedence).waiting

/-- Every unary operator that comes lets nothing go or leaves something that waits for a value. -/
def Supported (table : Table α) : Shunting → List String → Prop
  | _, [] => True
  | state, token :: tokens =>
    table.Supports state token ∧
      ∀ next, table.shunt state token = .ok next → table.Supported next tokens

variable {state next : Shunting} {tokens : List String}

theorem supported_cons (shunts : table.shunt state token = .ok next) :
    table.Supported state (token :: tokens) ↔
      table.Supports state token ∧ table.Supported next tokens := by
  rw [Supported, shunts]
  constructor
  · rintro ⟨here, later⟩
    exact ⟨here, later next rfl⟩
  · rintro ⟨here, later⟩
    refine ⟨here, ?_⟩
    rintro _ ⟨⟩
    exact later

theorem supported_append {tokens' : List String} (shunts : table.shuntAll state tokens = .ok next) :
    table.Supported state (tokens ++ tokens') ↔
      table.Supported state tokens ∧ table.Supported next tokens' := by
  induction tokens generalizing state with
  | nil =>
    obtain rfl := Except.ok.inj shunts
    rw [List.nil_append, Supported, true_and]
  | cons token tokens ih =>
    rw [shuntAll] at shunts
    split at shunts
    · rename_i middle first
      rw [List.cons_append, supported_cons first, supported_cons first, ih shunts, and_assoc]
    · cases shunts

theorem supports_operand (name : table.Operand) (state : Shunting) :
    table.Supports state name.token := by
  intro sign same
  exact absurd same.symm (name.ne_unary sign)

/-- A parenthesis is no unary operator. -/
theorem supports_mark (mark : isSolid token = false) (state : Shunting) :
    table.Supports state token := by
  rintro sign rfl
  rw [isSolid_of_role table (fun opens => nomatch sign.role.symm.trans opens)
    fun closes => nomatch sign.role.symm.trans closes] at mark
  exact nomatch mark

theorem supports_binary (sign : table.Binary) (state : Shunting) :
    table.Supports state sign.token := by
  intro sign' same
  exact absurd same (sign'.ne_binary sign)

theorem supports_unary (sign : table.Unary) (state : Shunting) :
    table.Supports state sign.token ↔ (state.released sign.precedence).waiting = state.waiting ∨
      0 < table.joints (state.released sign.precedence).waiting := by
  refine ⟨fun supports => supports sign rfl, fun supports sign' same => ?_⟩
  obtain rfl := Unary.eq_of_token same
  exact supports

theorem Genuine.push (genuine : table.Genuine state.waiting) {operator : Operator α}
    (role : table.role token = .operator operator) :
    table.Genuine ((state.released operator.precedence).push token operator.precedence).waiting := by
  intro token' precedence' member
  rcases List.mem_cons.mp member with same | member
  · injection same with same
    rw [same]
    exact arity_pos role
  · exact genuine.suffix (release_suffix _ _ _).1 token' precedence' member

/-- What an expression leads to from a state in which an operand is expected. -/
structure Completes (table : Table α) (state : Shunting) (supported : Prop) (next : Shunting) :
    Prop where
  genuine : table.Genuine next.waiting
  encloses : enclosing next.waiting = enclosing state.waiting
  grows : state.done <:+ next.done
  counted : table.count state.done = some (table.joints state.waiting) → supported →
    table.count next.done = some (table.joints next.waiting + 1)
  short : table.count state.done = some (table.joints state.waiting) → ¬supported →
    table.count next.done = none

namespace Completes

variable {middle : Shunting} {supported supported' : Prop}

/-- A unary operator, and an operand for it. -/
theorem unary (sign : table.Unary) (genuine : table.Genuine state.waiting)
    (completes : table.Completes
      ((state.released sign.precedence).push sign.token sign.precedence) supported next) :
    table.Completes state (table.Supports state sign.token ∧ supported) next := by
  have joints_push : table.joints
      ((state.released sign.precedence).push sign.token sign.precedence).waiting =
        table.joints (state.released sign.precedence).waiting := by
    rw [Shunting.push, joints, sign.arity, Nat.sub_self, Nat.zero_add]
  have early (expected : table.count state.done = some (table.joints state.waiting))
      (supports : table.Supports state sign.token) :
      table.count (state.released sign.precedence).done =
        some (table.joints (state.released sign.precedence).waiting) := by
    rcases (supports_unary sign state).mp supports with nothing | kept
    · rw [nothing, Shunting.released, release_done nothing]
      exact expected
    · exact count_release_early genuine expected kept
  refine ⟨completes.genuine, ?_, ?_, ?_, ?_⟩
  · exact completes.encloses.trans (enclosing_release _ _ _)
  · exact (release_suffix _ _ _).2.trans completes.grows
  · rintro expected ⟨supports, supported⟩
    refine completes.counted ?_ supported
    rw [joints_push]
    exact early expected supports
  · intro expected unsupported
    by_cases supports : table.Supports state sign.token
    · refine completes.short ?_ fun supported => unsupported ⟨supports, supported⟩
      rw [joints_push]
      exact early expected supports
    · obtain ⟨moves, spent⟩ := not_or.mp (mt (supports_unary sign state).mpr supports)
      exact count_suffix completes.grows (count_release_short genuine expected moves spent)

/-- An operand, a binary operator and another operand. -/
theorem binary (sign : table.Binary) (left : table.Completes state supported middle)
    (right : table.Completes
      ((middle.released sign.precedence).push sign.token sign.precedence) supported' next) :
    table.Completes state (supported ∧ supported') next := by
  have later (counted : table.count middle.done = some (table.joints middle.waiting + 1)) :
      table.count (middle.released sign.precedence).done = some (table.joints
        ((middle.released sign.precedence).push sign.token sign.precedence).waiting) := by
    rw [Shunting.push, joints, sign.arity, Nat.add_comm]
    exact count_release _ left.genuine counted
  have grows : middle.done <:+ next.done := (release_suffix _ _ _).2.trans right.grows
  refine ⟨right.genuine, ?_, left.grows.trans grows, ?_, ?_⟩
  · exact (right.encloses.trans (enclosing_release _ _ _)).trans left.encloses
  · rintro expected ⟨supported, supported'⟩
    exact right.counted (later (left.counted expected supported)) supported'
  · intro expected unsupported
    by_cases first : supported
    · exact right.short (later (left.counted expected first)) fun second =>
        unsupported ⟨first, second⟩
    · exact count_suffix grows (left.short expected first)

/-- A closing parenthesis finds the one that was opened, and everything above is let go. -/
theorem enclosed {waiting : List Waiting} {done : List String}
    (completes : table.Completes ⟨.parenthesis :: waiting, done⟩ supported middle)
    (genuine : table.Genuine waiting) :
    ∃ done', table.shunt middle closeMark = .ok ⟨waiting, done'⟩ ∧
      table.Completes ⟨waiting, done⟩ supported ⟨waiting, done'⟩ := by
  have left_over := (release_all middle.waiting middle.done).trans completes.encloses
  have grows := (release_suffix (fun _ => true) middle.waiting middle.done).2
  have released : release (fun _ => true) middle.waiting middle.done =
      ⟨.parenthesis :: waiting, (release (fun _ => true) middle.waiting middle.done).done⟩ :=
    congrArg (Shunting.mk · _) left_over
  refine ⟨_, shunt_closing table released, genuine, rfl, completes.grows.trans grows, ?_, ?_⟩
  · intro expected supported
    have counted := count_release (fun _ => true) completes.genuine
      (completes.counted expected supported)
    rw [left_over] at counted
    exact counted
  · intro expected unsupported
    exact count_suffix grows (completes.short expected unsupported)

end Completes

/-- While an expression is taken into account, the count is kept if its unary operators allow it. -/
theorem IsExpression.completes (expression : table.IsExpression tokens) (state : Shunting)
    (genuine : table.Genuine state.waiting) :
    ∃ next, table.shuntAll state tokens = .ok next ∧
      table.Completes state (table.Supported state tokens) next := by
  induction expression generalizing state with
  | operand name =>
    refine ⟨⟨state.waiting, name.token :: state.done⟩, ?_, genuine, rfl, List.suffix_cons _ _, ?_, ?_⟩
    · rw [shuntAll_cons (shunt_operand name.role state)]
      rfl
    · intro expected _
      rw [count_cons expected, name.arity, if_pos (Nat.zero_le _)]
      rfl
    · intro _ unsupported
      exact absurd ⟨supports_operand name state, fun _ _ => trivial⟩ unsupported
  | @unary sign tokens _ ih =>
    have pushed := shunt_operator sign.role state
    obtain ⟨next, shunts, completes⟩ := ih _ (genuine.push sign.role)
    refine ⟨next, ?_, ?_⟩
    · rw [shuntAll_cons pushed]
      exact shunts
    · rw [supported_cons pushed]
      exact completes.unary sign genuine
  | @binary sign tokens tokens' _ _ ih ih' =>
    obtain ⟨middle, shunts, left⟩ := ih state genuine
    have pushed := shunt_operator sign.role middle
    obtain ⟨next, shunts', right⟩ := ih' _ (left.genuine.push sign.role)
    refine ⟨next, ?_, ?_⟩
    · rw [shuntAll_append shunts, shuntAll_cons pushed]
      exact shunts'
    · rw [supported_append shunts, supported_cons pushed,
        and_iff_right (supports_binary sign middle)]
      exact left.binary sign right
  | @enclosed tokens _ ih =>
    obtain ⟨waiting, done⟩ := state
    have opened := shunt_opening table ⟨waiting, done⟩
    have genuine' : table.Genuine (.parenthesis :: waiting) := genuine.opened
    obtain ⟨middle, shunts, completes⟩ := ih ⟨.parenthesis :: waiting, done⟩ genuine'
    obtain ⟨done', closed, completes'⟩ := completes.enclosed genuine
    refine ⟨⟨waiting, done'⟩, ?_, ?_⟩
    · rw [shuntAll_cons opened, shuntAll_append shunts, shuntAll_cons closed]
      rfl
    · rw [supported_cons opened, and_iff_right (supports_mark rfl _), supported_append shunts,
        supported_cons closed, and_iff_right (supports_mark rfl middle), Supported, and_true]
      exact completes'

/-- No unary operator follows an operator that binds tighter. -/
def Follows (table : Table α) (first second : String) : Prop :=
  ∀ sign : table.Unary, sign.token = second → table.precedence first ≤ sign.precedence

theorem precedence_of_role {operator : Operator α} (role : table.role token = .operator operator) :
    table.precedence token = operator.precedence := by
  rw [precedence, find?_of_role role]

/-- A unary operator lets nothing go if it follows an operator that binds no tighter. -/
theorem held_of_follows {operator : Operator α} (role : table.role token = .operator operator)
    {tokens : List String} (chain : (token :: tokens).IsChain table.Follows) (waiting : List Waiting)
    (sign : table.Unary) (rest : List String) (first : tokens = sign.token :: rest) :
    Held sign.precedence (.operator token operator.precedence :: waiting) := by
  rw [first, List.isChain_cons_cons] at chain
  have looser := chain.1 sign rfl
  rw [precedence_of_role role] at looser
  exact held_operator looser token waiting

/-- Then nothing is let go too early. -/
theorem IsExpression.supported (expression : table.IsExpression tokens)
    (genuine : table.Genuine state.waiting) (chain : tokens.IsChain table.Follows)
    (held : ∀ (sign : table.Unary) (rest : List String), tokens = sign.token :: rest →
      Held sign.precedence state.waiting) : table.Supported state tokens := by
  induction expression generalizing state with
  | operand name => exact ⟨supports_operand name state, fun _ _ => trivial⟩
  | @unary sign tokens _ ih =>
    have pushed := shunt_operator sign.role state
    have supports : table.Supports state sign.token := by
      rw [supports_unary, Shunting.released, release_held (held sign tokens rfl)]
      exact .inl rfl
    refine (supported_cons pushed).mpr ⟨supports, ih ?_ chain.tail ?_⟩
    · exact genuine.push sign.role
    · exact held_of_follows sign.role chain _
  | @binary sign tokens tokens' left _ ih ih' =>
    obtain ⟨first, second, _⟩ := List.isChain_append.mp chain
    obtain ⟨middle, shunts, completes⟩ := left.completes state genuine
    have pushed := shunt_operator sign.role middle
    refine (supported_append shunts).mpr ⟨ih genuine first fun sign' rest same => ?_, ?_⟩
    · refine held sign' (rest ++ sign.token :: tokens') ?_
      rw [same]
      rfl
    · refine (supported_cons pushed).mpr ⟨supports_binary sign middle, ih' ?_ second.tail ?_⟩
      · exact completes.genuine.push sign.role
      · exact held_of_follows sign.role second _
  | @enclosed tokens inner ih =>
    obtain ⟨waiting, done⟩ := state
    have opened := shunt_opening table ⟨waiting, done⟩
    have genuine' : table.Genuine (.parenthesis :: waiting) := genuine.opened
    obtain ⟨middle, shunts, completes⟩ :=
      inner.completes ⟨.parenthesis :: waiting, done⟩ genuine'
    obtain ⟨done', closed, _⟩ := completes.enclosed genuine
    obtain ⟨within, _, _⟩ := List.isChain_append.mp chain.tail
    have supported : table.Supported ⟨.parenthesis :: waiting, done⟩ tokens :=
      ih genuine' within fun _ _ _ => held_parenthesis waiting
    refine (supported_cons opened).mpr ⟨supports_mark rfl _, (supported_append shunts).mpr
      ⟨supported, (supported_cons closed).mpr ⟨supports_mark rfl middle, trivial⟩⟩⟩

/-- In the end all is let go, and one value is there if the unary operators have allowed it. -/
theorem IsExpression.polish (expression : table.IsExpression tokens) :
    ∃ done, table.polish tokens = .ok done ∧
      (table.Supported ⟨[], []⟩ tokens → table.count done = some 1) ∧
      (¬table.Supported ⟨[], []⟩ tokens → table.count done = none) := by
  obtain ⟨next, shunts, completes⟩ := expression.completes ⟨[], []⟩ .nil
  have nothing := (release_all next.waiting next.done).trans completes.encloses
  have released : release (fun _ => true) next.waiting next.done =
      ⟨[], (release (fun _ => true) next.waiting next.done).done⟩ :=
    congrArg (Shunting.mk · _) nothing
  refine ⟨_, polish_of_shuntAll shunts released, fun supported => ?_, fun unsupported => ?_⟩
  · have counted := count_release (fun _ => true) completes.genuine (completes.counted rfl supported)
    rw [nothing] at counted
    exact counted
  · exact count_suffix (release_suffix _ _ _).2 (completes.short rfl unsupported)

end Table

/--
Every expression is rearranged, and no token is lost. The Polish form is that of a tree, whose value
is found, if each unary operator that comes lets nothing go or leaves an operator of two operands
waiting; otherwise the evaluation from the left fails. No unary operator lets anything go if none
follows an operator that binds tighter.
-/
theorem polish_of_expression {table : Table α} {tokens : List String}
    (expression : table.IsExpression tokens) (words : ∀ token ∈ tokens, IsWord token.toList)
    {assign : String → α}
    (known : ∀ token ∈ tokens, table.role token = .operand →
      table.resolve token = some (assign token)) :
    ∃ polish, table.polish tokens = .ok polish ∧ polish.Perm (tokens.filter isSolid) ∧
      (table.Supported ⟨[], []⟩ tokens → ∃ tree : Grouping table, tree.polish = polish ∧
        table.evaluateStrict (joinStrings " " polish) = .ok (tree.value assign)) ∧
      (¬table.Supported ⟨[], []⟩ tokens →
        ∃ e, table.evaluateStrict (joinStrings " " polish) = .error e) ∧
      (tokens.IsChain table.Follows → table.Supported ⟨[], []⟩ tokens) := by
  obtain ⟨polish, compiles, counted, short⟩ := expression.polish
  have perm := Table.polish_perm compiles
  have found : tokensOf (joinStrings " " polish) = polish :=
    tokensOf_joinStrings fun token member => words token (polish_mem compiles token member)
  refine ⟨polish, compiles, perm, fun supported => ?_, fun unsupported => ?_, fun chain => ?_⟩
  · have solid : ∀ token ∈ polish, isSolid token = true := fun token member =>
      (List.mem_filter.mp (perm.mem_iff.mp member)).2
    obtain ⟨tree, rfl⟩ := Grouping.exists_tree solid (counted supported)
    have denotes := tree.denotes
      (fun token member => known token (polish_mem compiles token member)) .nil
    rw [List.append_nil] at denotes
    refine ⟨tree, rfl, ?_⟩
    rw [Table.evaluateStrict, found, denotes.evaluateTokens]
  · rw [Table.evaluateStrict, found]
    cases strict : table.evaluateTokens polish with
    | error e => exact ⟨e, rfl⟩
    | ok value =>
      have denotes := Table.evaluateTokens_eq_ok_iff.mp strict
      cases (short unsupported).symm.trans denotes.count
  · exact expression.supported .nil chain fun _ _ _ => held_nil

namespace Spoilt

/-- A product binds tighter than the sign before a factor. -/
def numbers : Table Int where
  operators :=
    [("*", ⟨2, .binary fun right left => left * right, Nat.two_pos⟩),
     ("neg", ⟨1, .unary fun a => -a, Nat.one_pos⟩)]
  resolve := fun _ => some 5
  free := by simp [openMark, closeMark]

def negative : numbers.Unary := ⟨"neg", 1, fun a => -a, Nat.one_pos, rfl⟩

def times : numbers.Binary := ⟨"*", 2, fun right left => left * right, Nat.two_pos, rfl⟩

def a : numbers.Operand := ⟨"a", rfl⟩

def b : numbers.Operand := ⟨"b", rfl⟩

theorem expression : numbers.IsExpression ["a", "*", "neg", "b"] :=
  .binary times (.operand a) (.unary negative (.operand b))

/-- When the sign comes, the product is let go, and nothing else waits. -/
theorem unsupported : ¬numbers.Supported ⟨[], []⟩ ["a", "*", "neg", "b"] := by
  rintro ⟨_, later⟩
  obtain ⟨_, later⟩ := later ⟨[], ["a"]⟩ rfl
  obtain ⟨supports, _⟩ := later ⟨[.operator "*" 2], ["a"]⟩ rfl
  rcases supports negative rfl with same | waits
  · exact nomatch same
  · exact absurd waits (Nat.lt_irrefl 0)

end Spoilt

/-- The product has one factor only when the sign lets it go. -/
theorem polish_of_expression_spoilt :
    Spoilt.numbers.polish ["a", "*", "neg", "b"] = .ok ["neg", "b", "*", "a"] ∧
      ∃ e, Spoilt.numbers.evaluateStrict "neg b * a" = .error e := by
  have words : ∀ token ∈ ["a", "*", "neg", "b"], IsWord token.toList := areWords_of_all (by decide)
  have known : ∀ token ∈ ["a", "*", "neg", "b"], Spoilt.numbers.role token = .operand →
      Spoilt.numbers.resolve token = some ((fun _ => 5) token) := fun _ _ _ => rfl
  obtain ⟨polish, compiles, _, _, spoilt, _⟩ := polish_of_expression Spoilt.expression words known
  obtain rfl : ["neg", "b", "*", "a"] = polish := Except.ok.inj compiles
  exact ⟨compiles, spoilt Spoilt.unsupported⟩

end Switchboard.Expr
