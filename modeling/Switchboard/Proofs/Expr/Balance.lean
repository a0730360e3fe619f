import Switchboard.Proofs.Expr.Acceptance

/-!
# Parentheses decide whether tokens are rearranged

Every token list is rearranged, well-formed or not, unless its parentheses do
not match. As many parentheses wait on the stack as have been opened and not
been closed. A closing one that finds none stops at once, so it is reported
before any that stays open. Where neither happens no token is lost: those that
are no parentheses come out, the operands in reverse.
-/
namespace Switchboard.Expr

universe u

variable {α : Type u}

/-- How many parentheses wait to be closed. -/
def unclosed : List Waiting → Nat
  | [] => 0
  | .parenthesis :: waiting => unclosed waiting + 1
  | .operator _ _ :: waiting => unclosed waiting

/-- No initial part closes more parentheses than it opens, if `depth` are open before it. -/
def Covered (depth : Nat) (tokens : List String) : Prop :=
  ∀ part, part <+: tokens → part.count closeMark ≤ depth + part.count openMark

section Covered

variable {depth depth' : Nat} {token : String} {tokens : List String}

theorem Covered.nil : Covered depth [] := by
  intro part initial
  rw [List.prefix_nil.mp initial]
  exact Nat.zero_le _

theorem count_token (token mark : String) (part : List String) :
    (token :: part).count mark = [token].count mark + part.count mark := by
  rw [← List.singleton_append, List.count_append]

/-- What comes after a token has to be covered by what is open then. -/
theorem covered_cons
    (balance : depth' + [token].count closeMark = depth + [token].count openMark) :
    Covered depth (token :: tokens) ↔ Covered depth' tokens := by
  constructor
  · intro covered part initial
    have whole := covered (token :: part) (List.cons_prefix_cons.mpr ⟨rfl, initial⟩)
    have opened := count_token token openMark part
    have closed := count_token token closeMark part
    omega
  · intro covered part initial
    rcases List.prefix_cons_iff.mp initial with rfl | ⟨later, rfl, initial'⟩
    · exact Nat.zero_le _
    · have rest := covered later initial'
      have opened := count_token token openMark later
      have closed := count_token token closeMark later
      omega

/-- A closing parenthesis is not covered if none is open. -/
theorem not_covered_close (tokens : List String) : ¬Covered 0 (closeMark :: tokens) := by
  intro covered
  have first := covered [closeMark] (List.cons_prefix_cons.mpr ⟨rfl, List.nil_prefix⟩)
  exact absurd first (by decide)

end Covered

theorem unclosed_release (test : Nat → Bool) (waiting : List Waiting) (done : List String) :
    unclosed (release test waiting done).waiting = unclosed waiting :=
  release_keeps (P := fun waits _ => unclosed waits = unclosed waiting)
    (fun _ _ _ _ same => same) test rfl

/-- When all has been let go, the innermost open parenthesis is on top, if there is one. -/
theorem enclosing_cases (waiting : List Waiting) :
    (unclosed waiting = 0 ∧ enclosing waiting = []) ∨
      ∃ below, unclosed waiting = unclosed below + 1 ∧ enclosing waiting = .parenthesis :: below := by
  induction waiting with
  | nil => exact .inl ⟨rfl, rfl⟩
  | cons first waiting ih =>
    cases first with
    | parenthesis => exact .inr ⟨waiting, rfl, rfl⟩
    | operator token precedence => exact ih

/-- All has been let go down to the innermost open parenthesis. -/
theorem exists_release {waiting left : List Waiting} (encloses : enclosing waiting = left)
    (done : List String) : ∃ done', release (fun _ => true) waiting done = ⟨left, done'⟩ :=
  ⟨_, congrArg (Shunting.mk · _) ((release_all waiting done).trans encloses)⟩

theorem count_eq_zero_of_isSolid {token mark : String} (solid : isSolid token = true)
    (is_mark : isSolid mark = false) : [token].count mark = 0 := by
  refine List.count_eq_zero.mpr fun member => ?_
  obtain rfl := List.mem_singleton.mp member
  exact nomatch solid.symm.trans is_mark

namespace Table

variable {table : Table α} {token : String} {tokens : List String} {state next : Shunting}

/-- A closing parenthesis where none is open. -/
theorem shunt_closing_none (table : Table α) (none_open : enclosing state.waiting = []) :
    table.shunt state closeMark = .error .unmatchedClose := by
  obtain ⟨done, released⟩ := exists_release none_open state.done
  rw [shunt, role_closing_iff.mpr rfl]
  simp only [released]

/-- A step: a closing parenthesis finds none open, or what is open is counted on. -/
theorem shunt_unclosed (table : Table α) (state : Shunting) (token : String) :
    (token = closeMark ∧ unclosed state.waiting = 0 ∧
      table.shunt state token = .error .unmatchedClose) ∨
    ∃ next, table.shunt state token = .ok next ∧
      unclosed next.waiting + [token].count closeMark =
        unclosed state.waiting + [token].count openMark := by
  cases role : table.role token with
  | opening =>
    obtain rfl := role_opening_iff.mp role
    exact .inr ⟨_, shunt_opening table state, rfl⟩
  | closing =>
    obtain rfl := role_closing_iff.mp role
    rcases enclosing_cases state.waiting with ⟨none_open, nothing⟩ | ⟨below, one_more, first⟩
    · exact .inl ⟨rfl, none_open, shunt_closing_none table nothing⟩
    · obtain ⟨done, released⟩ := exists_release first state.done
      exact .inr ⟨_, shunt_closing table released, one_more.symm⟩
  | operator operator =>
    have solid : isSolid token = true := isSolid_of_role table (by simp [role]) (by simp [role])
    refine .inr ⟨_, shunt_operator role state, ?_⟩
    rw [count_eq_zero_of_isSolid solid rfl, count_eq_zero_of_isSolid solid rfl]
    exact unclosed_release _ _ _
  | operand =>
    have solid : isSolid token = true := isSolid_of_role table (by simp [role]) (by simp [role])
    refine .inr ⟨_, shunt_operand role state, ?_⟩
    rw [count_eq_zero_of_isSolid solid rfl, count_eq_zero_of_isSolid solid rfl]

/-- All tokens are taken into account exactly if they are covered by what is open. -/
theorem shuntAll_unclosed (table : Table α) (state : Shunting) (tokens : List String) :
    (¬Covered (unclosed state.waiting) tokens ∧
      table.shuntAll state tokens = .error .unmatchedClose) ∨
    (Covered (unclosed state.waiting) tokens ∧ ∃ next, table.shuntAll state tokens = .ok next ∧
      unclosed next.waiting + tokens.count closeMark =
        unclosed state.waiting + tokens.count openMark) := by
  induction tokens generalizing state with
  | nil => exact .inr ⟨.nil, state, rfl, rfl⟩
  | cons token tokens ih =>
    rcases table.shunt_unclosed state token with ⟨rfl, none_open, stops⟩ | ⟨next, goes, balance⟩
    · refine .inl ⟨?_, ?_⟩
      · rw [none_open]
        exact not_covered_close tokens
      · rw [shuntAll, stops]
    · rw [covered_cons balance, shuntAll_cons goes]
      refine (ih next).imp_right ?_
      rintro ⟨covered, last, shunts, counted⟩
      refine ⟨covered, last, shunts, ?_⟩
      have opened := count_token token openMark tokens
      have closed := count_token token closeMark tokens
      omega

/-- In the end nothing may be open. -/
theorem finish_unclosed (state : Shunting) :
    (unclosed state.waiting = 0 ∧ ∃ polish, state.finish = .ok polish) ∨
      (0 < unclosed state.waiting ∧ state.finish = .error .unmatchedOpen) := by
  rcases enclosing_cases state.waiting with ⟨none_open, nothing⟩ | ⟨below, one_more, first⟩
  · obtain ⟨done, released⟩ := exists_release nothing state.done
    refine .inl ⟨none_open, done, ?_⟩
    rw [Shunting.finish, released]
  · obtain ⟨done, released⟩ := exists_release first state.done
    refine .inr ⟨by omega, ?_⟩
    rw [Shunting.finish, released]

/-- What comes of tokens, by their parentheses. -/
theorem polish_cases (table : Table α) (tokens : List String) :
    (¬Covered 0 tokens ∧ table.polish tokens = .error .unmatchedClose) ∨
    (Covered 0 tokens ∧ tokens.count closeMark < tokens.count openMark ∧
      table.polish tokens = .error .unmatchedOpen) ∨
    (Covered 0 tokens ∧ tokens.count closeMark = tokens.count openMark ∧
      ∃ polish, table.polish tokens = .ok polish) := by
  rcases table.shuntAll_unclosed ⟨[], []⟩ tokens with
    ⟨bare, stops⟩ | ⟨covered, last, shunts, balance⟩
  · refine .inl ⟨bare, ?_⟩
    rw [Table.polish, stops]
  · rw [unclosed, Nat.zero_add] at balance
    rcases finish_unclosed last with ⟨closed, polish, ends⟩ | ⟨open_still, ends⟩
    · refine .inr (.inr ⟨covered, by omega, polish, ?_⟩)
      rw [Table.polish, shunts]
      exact ends
    · refine .inr (.inl ⟨covered, by omega, ?_⟩)
      rw [Table.polish, shunts]
      exact ends

/-- No parenthesis is in a Polish form. -/
theorem not_mem_polish {polish : List String} (compiles : table.polish tokens = .ok polish)
    {mark : String} (is_mark : isSolid mark = false) : mark ∉ polish := by
  intro member
  have solid := (List.mem_filter.mp ((polish_perm compiles).mem_iff.mp member)).2
  exact nomatch solid.symm.trans is_mark

end Table

/--
Tokens are rearranged, whatever they are, exactly if their parentheses match. A closing parenthesis
too many is what is reported if some initial part closes more than it opens, and otherwise an open
one if the whole opens more than it closes. If neither is the case, all tokens that are no
parentheses come out and nothing else, the operands among them in reverse.
-/
theorem polish_iff_balanced (table : Table α) (tokens : List String) :
    (table.polish tokens = .error .unmatchedClose ↔
      ∃ part, part <+: tokens ∧ part.count openMark < part.count closeMark) ∧
    (table.polish tokens = .error .unmatchedOpen ↔
      (¬∃ part, part <+: tokens ∧ part.count openMark < part.count closeMark) ∧
        tokens.count closeMark < tokens.count openMark) ∧
    ((∃ polish, table.polish tokens = .ok polish ∧ polish.Perm (tokens.filter isSolid) ∧
        polish.filter table.isOperand = (tokens.filter table.isOperand).reverse ∧
        openMark ∉ polish ∧ closeMark ∉ polish) ↔
      (¬∃ part, part <+: tokens ∧ part.count openMark < part.count closeMark) ∧
        ¬tokens.count closeMark < tokens.count openMark) := by
  have covered_iff : Covered 0 tokens ↔
      ¬∃ part, part <+: tokens ∧ part.count openMark < part.count closeMark := by
    simp only [Covered, Nat.zero_add, not_exists, not_and, Nat.not_lt]
  rw [← covered_iff, ← not_iff_not (b := ∃ part, _), ← covered_iff]
  rcases table.polish_cases tokens with ⟨bare, ends⟩ | ⟨covered, more, ends⟩ |
    ⟨covered, same, polish, ends⟩
  · simp [ends, bare]
  · simp [ends, covered, more]
  · have all := Table.polish_perm ends
    have operands := Table.polish_operands ends
    have no_open : openMark ∉ polish := Table.not_mem_polish ends rfl
    have no_close : closeMark ∉ polish := Table.not_mem_polish ends rfl
    simp [ends, covered, same, all, operands, no_open, no_close]

end Switchboard.Expr
