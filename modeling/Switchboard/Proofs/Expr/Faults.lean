import Switchboard.Proofs.Expr.Counting
import Switchboard.Proofs.Expr.Skipping

/-!
# What is wrong with tokens in Polish form

One pass over the tokens counts the operands that are called for. It begins
with one; a token takes one away and calls for as many as it has operands
itself, and the pass stops when none is called for. What it has read and what
it has not says everything about the evaluation from the left: which name has
no value, which operator lacks an operand, which token is too many. The
evaluation leaves alone what the pass has not read.
-/
namespace Switchboard.Expr

open Switchboard.Text

universe u

variable {α : Type u}

/-- Tokens that have been read, operands that are called for still, and tokens that are left. -/
structure Scan where
  read : List String
  need : Nat
  unread : List String
  deriving Repr, DecidableEq

section Except

universe v w

variable {ε : Type u} {β : Type v} {γ : Type w} {outcome : Except ε β} {f : β → γ}

theorem error_of_map {e : ε} (fails : outcome.map f = .error e) : outcome = .error e := by
  cases outcome with
  | error e' => exact congrArg Except.error (Except.error.inj fails)
  | ok value => exact nomatch fails

theorem ok_of_map {result : γ} (ends : outcome.map f = .ok result) :
    ∃ value, outcome = .ok value ∧ f value = result := by
  cases outcome with
  | error e => exact nomatch ends
  | ok value => exact ⟨value, rfl, Except.ok.inj ends⟩

end Except

namespace Table

/-- Reads tokens as long as operands are called for. -/
def scan (table : Table α) : Nat → List String → Scan
  | 0, tokens => ⟨[], 0, tokens⟩
  | need + 1, [] => ⟨[], need + 1, []⟩
  | need + 1, token :: rest =>
    let later := table.scan (need + table.arity token) rest
    { later with read := token :: later.read }

/-- The pass over the tokens of a text, of which one value is expected. -/
def pass (table : Table α) (text : String) : Scan :=
  table.scan 1 (tokensOf text)

/-- A token that is no operator and has no value. -/
def unresolved (table : Table α) (token : String) : Bool :=
  match table.role token with
  | .operator _ => false
  | _ => (table.resolve token).isNone

/-- The operators for whose operands there are not tokens enough, in the order of reading. -/
def lacking (table : Table α) : List String → List String
  | [] => []
  | token :: rest =>
    if (table.scan (table.arity token) rest).need = 0 then table.lacking rest
    else token :: table.lacking rest

/-- How the evaluation of several operands of `parent` ends, by the pass over the tokens. -/
def verdict (table : Table α) (parent : String) (need : Nat) (tokens : List String) :
    Except Error (List String) :=
  match (table.scan need tokens).read.find? table.unresolved with
  | some token => .error (.unresolvedOperand token)
  | none =>
    if (table.scan need tokens).need = 0 then .ok (table.scan need tokens).unread
    else .error (.missingOperand ((table.lacking tokens).getLast?.getD parent))

variable {table : Table α} {token : String} {tokens rest : List String} {need more : Nat}

theorem scan_cons (need : Nat) (token : String) (rest : List String) :
    table.scan (need + 1) (token :: rest) =
      ⟨token :: (table.scan (need + table.arity token) rest).read,
        (table.scan (need + table.arity token) rest).need,
        (table.scan (need + table.arity token) rest).unread⟩ := rfl

theorem read_append_unread (table : Table α) (need : Nat) (tokens : List String) :
    (table.scan need tokens).read ++ (table.scan need tokens).unread = tokens := by
  induction tokens generalizing need with
  | nil => cases need <;> rfl
  | cons token rest ih =>
    cases need with
    | zero => rfl
    | succ need =>
      rw [scan_cons, List.cons_append, ih]

theorem length_unread_le (table : Table α) (need : Nat) (tokens : List String) :
    (table.scan need tokens).unread.length ≤ tokens.length := by
  have all := congrArg List.length (table.read_append_unread need tokens)
  rw [List.length_append] at all
  omega

/-- If the tokens run out, all the others are called for as well. -/
theorem scan_add_short (short : (table.scan need tokens).need ≠ 0) (more : Nat) :
    table.scan (need + more) tokens =
      ⟨(table.scan need tokens).read, (table.scan need tokens).need + more, []⟩ := by
  induction tokens generalizing need with
  | nil =>
    cases need with
    | zero => exact absurd rfl short
    | succ need =>
      rw [Nat.add_right_comm]
      exact congrArg (Scan.mk [] · []) (Nat.add_right_comm need more 1)
  | cons token rest ih =>
    cases need with
    | zero => exact absurd rfl short
    | succ need =>
      have later := ih short
      rw [Nat.add_right_comm] at later
      rw [Nat.add_right_comm, scan_cons, scan_cons, later]

/-- If the tokens are enough for some operands, the others are looked for in what is left. -/
theorem scan_add_done (done : (table.scan need tokens).need = 0) (more : Nat) :
    table.scan (need + more) tokens =
      ⟨(table.scan need tokens).read ++ (table.scan more (table.scan need tokens).unread).read,
        (table.scan more (table.scan need tokens).unread).need,
        (table.scan more (table.scan need tokens).unread).unread⟩ := by
  induction tokens generalizing need with
  | nil =>
    cases need with
    | zero =>
      rw [Nat.zero_add]
      rfl
    | succ need => exact nomatch done
  | cons token rest ih =>
    cases need with
    | zero =>
      rw [Nat.zero_add]
      rfl
    | succ need =>
      have later := ih done
      rw [Nat.add_right_comm] at later
      rw [Nat.add_right_comm, scan_cons, scan_cons, later]
      rfl

/-- What has been read is enough by itself. -/
theorem scan_read (done : (table.scan need tokens).need = 0) :
    table.scan need (table.scan need tokens).read = ⟨(table.scan need tokens).read, 0, []⟩ := by
  induction tokens generalizing need with
  | nil =>
    cases need with
    | zero => rfl
    | succ need => exact nomatch done
  | cons token rest ih =>
    cases need with
    | zero => rfl
    | succ need =>
      have later := ih done
      rw [scan_cons, scan_cons, later]

theorem scan_mono (done : (table.scan (need + more) tokens).need = 0) :
    (table.scan need tokens).need = 0 := by
  by_cases enough : (table.scan need tokens).need = 0
  · exact enough
  · rw [scan_add_short enough more] at done
    exact (Nat.add_eq_zero_iff.mp done).1

/-- Operators that lack operands are left over with the tokens where these run out. -/
theorem lacking_unread (done : (table.scan need tokens).need = 0) :
    table.lacking tokens = table.lacking (table.scan need tokens).unread := by
  induction tokens generalizing need with
  | nil =>
    cases need with
    | zero => rfl
    | succ need => exact nomatch done
  | cons token rest ih =>
    cases need with
    | zero => rfl
    | succ need =>
      rw [scan_cons] at done ⊢
      have complete : (table.scan (table.arity token) rest).need = 0 := by
        rw [Nat.add_comm] at done
        exact scan_mono done
      rw [lacking, if_pos complete]
      exact ih done

/-- The pass may be interrupted where some of the operands are complete. -/
theorem verdict_add (parent : String) (need more : Nat) (tokens : List String) :
    table.verdict parent (need + more) tokens =
      (table.verdict parent need tokens).bind (table.verdict parent more) := by
  by_cases done : (table.scan need tokens).need = 0
  · have rest := scan_add_done done more
    unfold verdict
    rw [rest, List.find?_append, if_pos done, lacking_unread done]
    cases (table.scan need tokens).read.find? table.unresolved with
    | some token => rfl
    | none => rfl
  · have rest := scan_add_short done more
    have short : (table.scan need tokens).need + more ≠ 0 := by omega
    unfold verdict
    rw [rest, if_neg done, if_neg short]
    cases (table.scan need tokens).read.find? table.unresolved with
    | some token => rfl
    | none => rfl

/-- An operator stands where its operands are called for instead. -/
theorem verdict_operator {operator : Operator α} (role : table.role token = .operator operator)
    (parent : String) (rest : List String) :
    table.verdict parent 1 (token :: rest) =
      table.verdict token operator.application.arity rest := by
  have known : table.unresolved token = false := by rw [unresolved, role]
  unfold verdict
  rw [scan_cons, Nat.zero_add, arity_operator role, List.find?_cons_of_neg (by simp [known])]
  cases (table.scan operator.application.arity rest).read.find? table.unresolved with
  | some name => rfl
  | none =>
    by_cases done : (table.scan operator.application.arity rest).need = 0
    · simp only [if_pos done]
    · have last : (table.lacking (token :: rest)).getLast?.getD parent =
          (table.lacking rest).getLast?.getD token := by
        rw [lacking, arity_operator role, if_neg done, List.getLast?_cons]
        rfl
      simp only [if_neg done, last]

theorem verdict_name (names : table.Names token) (parent : String) (rest : List String) :
    table.verdict parent 1 (token :: rest) =
      match table.resolve token with
      | some _ => .ok rest
      | none => .error (.unresolvedOperand token) := by
  have plain : table.unresolved token = (table.resolve token).isNone := by
    unfold unresolved
    split
    · rename_i operator role
      exact absurd role (names operator)
    · rfl
  have single : table.scan 1 (token :: rest) = ⟨[token], 0, rest⟩ := by
    rw [scan_cons, arity_name names]
    cases rest <;> rfl
  unfold verdict
  rw [single]
  cases resolved : table.resolve token with
  | some value =>
    rw [List.find?_cons_of_neg (by simp [plain, resolved])]
    rfl
  | none =>
    rw [List.find?_cons_of_pos (by simp [plain, resolved])]

/-- The three ways in which the evaluation of operands ends. -/
theorem verdict_cases (table : Table α) (parent : String) (need : Nat) (tokens : List String) :
    (∃ token, (table.scan need tokens).read.find? table.unresolved = some token ∧
      table.verdict parent need tokens = .error (.unresolvedOperand token)) ∨
    ((table.scan need tokens).read.find? table.unresolved = none ∧
      (table.scan need tokens).need ≠ 0 ∧ table.verdict parent need tokens =
        .error (.missingOperand ((table.lacking tokens).getLast?.getD parent))) ∨
    ((table.scan need tokens).read.find? table.unresolved = none ∧
      (table.scan need tokens).need = 0 ∧
      table.verdict parent need tokens = .ok (table.scan need tokens).unread) := by
  unfold verdict
  cases known : (table.scan need tokens).read.find? table.unresolved with
  | some token => exact .inl ⟨token, rfl, rfl⟩
  | none =>
    by_cases done : (table.scan need tokens).need = 0
    · exact .inr (.inr ⟨rfl, done, if_pos done⟩)
    · exact .inr (.inl ⟨rfl, done, if_neg done⟩)

theorem unread_of_verdict {parent : String} {left : List String}
    (ends : table.verdict parent need tokens = .ok left) :
    (table.scan need tokens).unread = left := by
  rcases table.verdict_cases parent need tokens with ⟨_, _, same⟩ | ⟨_, _, same⟩ | ⟨_, _, same⟩
  · exact nomatch same.symm.trans ends
  · exact nomatch same.symm.trans ends
  · exact Except.ok.inj (same.symm.trans ends)

theorem length_le_of_verdict {parent : String} {left : List String}
    (ends : table.verdict parent need tokens = .ok left) : left.length ≤ tokens.length := by
  rw [← unread_of_verdict ends]
  exact table.length_unread_le need tokens

theorem descend_name (names : table.Names token) (fuel : Nat) (parent : String)
    (rest : List String) :
    table.descend (fuel + 1) parent (token :: rest) =
      match table.resolve token with
      | some value => .ok (value, rest)
      | none => .error (.unresolvedOperand token) := by
  rw [descend]
  split
  · rename_i role
    exact absurd role (names _)
  · rename_i role
    exact absurd role (names _)
  · rfl

theorem descend_unary {precedence : Nat} {f : α → α} {positive : 0 < precedence}
    (role : table.role token = .operator ⟨precedence, .unary f, positive⟩) (fuel : Nat)
    (parent : String) (rest : List String) :
    table.descend (fuel + 1) parent (token :: rest) =
      (table.descend fuel token rest).map fun found => (f found.1, found.2) := by
  rw [descend]
  simp only [role]
  cases table.descend fuel token rest with
  | error e => rfl
  | ok found => rfl

theorem descend_binary {precedence : Nat} {f : α → α → α} {positive : 0 < precedence}
    (role : table.role token = .operator ⟨precedence, .binary f, positive⟩) (fuel : Nat)
    (parent : String) (rest : List String) :
    table.descend (fuel + 1) parent (token :: rest) =
      (table.descend fuel token rest).bind fun first =>
        (table.descend fuel token first.2).map fun second => (f first.1 second.1, second.2) := by
  rw [descend]
  simp only [role]
  cases table.descend fuel token rest with
  | error e => rfl
  | ok first =>
    obtain ⟨a, rest⟩ := first
    show _ = (table.descend fuel token rest).map _
    cases second : table.descend fuel token rest with
    | error e => simp only [second]; rfl
    | ok found => simp only [second]; rfl

/-- The evaluation from the left ends as the pass says. -/
theorem descend_verdict {fuel : Nat} (enough : tokens.length ≤ fuel) (parent : String) :
    (table.descend fuel parent tokens).map Prod.snd = table.verdict parent 1 tokens := by
  induction fuel generalizing tokens parent with
  | zero =>
    obtain rfl : tokens = [] := List.length_eq_zero_iff.mp (by omega)
    rfl
  | succ fuel ih =>
    cases tokens with
    | nil => rfl
    | cons token rest =>
      have enough' : rest.length ≤ fuel := Nat.le_of_succ_le_succ enough
      have first := ih enough' token
      rcases table.names_or_operator token with names | ⟨⟨precedence, f | f, positive⟩, role⟩
      · rw [descend_name names, verdict_name names]
        cases table.resolve token with
        | some value => rfl
        | none => rfl
      · rw [descend_unary role, verdict_operator role, Application.arity, ← first]
        cases table.descend fuel token rest with
        | error e => rfl
        | ok found => rfl
      · rw [descend_binary role, verdict_operator role, Application.arity,
          table.verdict_add token 1 1, ← first]
        cases found : table.descend fuel token rest with
        | error e => rfl
        | ok one =>
          rw [found] at first
          have shorter := length_le_of_verdict first.symm
          show Except.map Prod.snd (Except.map _ (table.descend fuel token one.2)) =
            table.verdict token 1 one.2
          rw [← ih (Nat.le_trans shorter enough') token]
          cases table.descend fuel token one.2 with
          | error e => rfl
          | ok two => rfl

/-- Where the pass stops, the evaluation has what it needs. What comes later is left alone. -/
theorem descend_append {fuel fuel' : Nat} (done : (table.scan 1 tokens).need = 0)
    (enough : tokens.length ≤ fuel) (later : List String)
    (enough' : (tokens ++ later).length ≤ fuel') (parent : String) :
    table.descend fuel' parent (tokens ++ later) =
      (table.descend fuel parent tokens).map fun found => (found.1, found.2 ++ later) := by
  induction fuel generalizing fuel' tokens parent with
  | zero =>
    obtain rfl : tokens = [] := List.length_eq_zero_iff.mp (by omega)
    exact nomatch done
  | succ fuel ih =>
    cases tokens with
    | nil => exact nomatch done
    | cons token rest =>
      obtain ⟨fuel', rfl⟩ : ∃ n, fuel' = n + 1 := ⟨fuel' - 1, by simp at enough'; omega⟩
      have lower : rest.length ≤ fuel := Nat.le_of_succ_le_succ enough
      have lower' : (rest ++ later).length ≤ fuel' := Nat.le_of_succ_le_succ enough'
      rw [scan_cons, Nat.zero_add] at done
      rw [List.cons_append]
      rcases table.names_or_operator token with names | ⟨⟨precedence, f | f, positive⟩, role⟩
      · rw [descend_name names, descend_name names]
        cases table.resolve token with
        | some value => rfl
        | none => rfl
      · rw [arity_operator role] at done
        rw [descend_unary role, descend_unary role, ih done lower lower' token]
        cases table.descend fuel token rest with
        | error e => rfl
        | ok found => rfl
      · rw [arity_operator role] at done
        have two_needed : (table.scan (1 + 1) rest).need = 0 := done
        have one_done := scan_mono two_needed
        have verdict := table.descend_verdict lower token
        rw [descend_binary role, descend_binary role, ih one_done lower lower' token]
        cases found : table.descend fuel token rest with
        | error e => rfl
        | ok one =>
          rw [found] at verdict
          have shorter := length_le_of_verdict verdict.symm
          have two_done := congrArg Scan.need (scan_add_done one_done 1)
          rw [unread_of_verdict verdict.symm] at two_done
          have lower_two : (one.2 ++ later).length ≤ fuel' := by
            rw [List.length_append] at lower' ⊢
            omega
          have second := ih (two_done.symm.trans done) (Nat.le_trans shorter lower) lower_two token
          show Except.map _ (table.descend fuel' token (one.2 ++ later)) =
            Except.map _ (Except.map _ (table.descend fuel token one.2))
          rw [second]
          cases table.descend fuel token one.2 with
          | error e => rfl
          | ok two => rfl

/-- More room than there are tokens changes nothing. -/
theorem descend_fuel {fuel : Nat} (enough : tokens.length ≤ fuel) (parent : String) :
    table.descend fuel parent tokens = table.descend tokens.length parent tokens := by
  rcases table.verdict_cases parent 1 tokens with ⟨_, _, ends⟩ | ⟨_, _, ends⟩ | ⟨_, done, _⟩
  · rw [error_of_map ((table.descend_verdict enough parent).trans ends),
      error_of_map ((table.descend_verdict (Nat.le_refl _) parent).trans ends)]
  · rw [error_of_map ((table.descend_verdict enough parent).trans ends),
      error_of_map ((table.descend_verdict (Nat.le_refl _) parent).trans ends)]
  · have enough' : (tokens ++ []).length ≤ fuel := by rwa [List.append_nil]
    have same := descend_append done (Nat.le_refl _) [] enough' parent
    simp only [List.append_nil] at same
    rw [same]
    cases table.descend tokens.length parent tokens with
    | error e => rfl
    | ok found => rfl

/-- The evaluation of what the pass has read has one outcome, whatever comes later. -/
theorem descend_read (done : (table.scan 1 tokens).need = 0) :
    ∃ outcome : Except Error α, ∀ later fuel,
      ((table.scan 1 tokens).read ++ later).length ≤ fuel →
      table.descend fuel "" ((table.scan 1 tokens).read ++ later) =
        outcome.map fun value => (value, later) := by
  have alone := scan_read done
  generalize (table.scan 1 tokens).read = read at alone ⊢
  have verdict := table.descend_verdict (Nat.le_refl read.length) ""
  refine ⟨(table.descend read.length "" read).map Prod.fst, fun later fuel enough => ?_⟩
  rw [descend_append (congrArg Scan.need alone) (Nat.le_refl _) later enough ""]
  cases found : table.descend read.length "" read with
  | error e => rfl
  | ok found' =>
    rw [found] at verdict
    have left := unread_of_verdict verdict.symm
    rw [alone] at left
    show Except.ok (found'.1, found'.2 ++ later) = Except.ok (found'.1, later)
    rw [← left, List.nil_append]

/-- If an operand is missing, some operator lacks it, unless there are no tokens at all. -/
theorem exists_lacking (some_token : tokens ≠ []) (short : (table.scan 1 tokens).need ≠ 0) :
    ∃ operator, (table.lacking tokens).getLast? = some operator := by
  obtain ⟨token, rest, rfl⟩ := List.exists_cons_of_ne_nil some_token
  rw [scan_cons, Nat.zero_add] at short
  rw [lacking, if_neg short, List.getLast?_cons]
  exact ⟨_, rfl⟩

/-- The ways in which the evaluation of a whole list of tokens ends. -/
theorem evaluateTokens_cases (table : Table α) (some_token : tokens ≠ []) :
    (∃ token, (table.scan 1 tokens).read.find? table.unresolved = some token ∧
      table.evaluateTokens tokens = .error (.unresolvedOperand token)) ∨
    ((table.scan 1 tokens).read.find? table.unresolved = none ∧ (table.scan 1 tokens).need ≠ 0 ∧
      ∃ operator, (table.lacking tokens).getLast? = some operator ∧
        table.evaluateTokens tokens = .error (.missingOperand operator)) ∨
    ((table.scan 1 tokens).read.find? table.unresolved = none ∧ (table.scan 1 tokens).need = 0 ∧
      ∃ token later, (table.scan 1 tokens).unread = token :: later ∧
        table.evaluateTokens tokens = .error (.trailingToken token)) ∨
    ((table.scan 1 tokens).read.find? table.unresolved = none ∧ (table.scan 1 tokens).need = 0 ∧
      (table.scan 1 tokens).unread = [] ∧ ∃ value, table.evaluateTokens tokens = .ok value) := by
  have not_empty : ¬tokens.isEmpty = true := by rwa [List.isEmpty_iff]
  rw [evaluateTokens, if_neg not_empty]
  have ends := table.descend_verdict (Nat.le_refl tokens.length) ""
  rcases table.verdict_cases "" 1 tokens with
    ⟨token, unknown, same⟩ | ⟨known, short, same⟩ | ⟨known, done, same⟩
  · rw [error_of_map (ends.trans same)]
    exact .inl ⟨token, unknown, rfl⟩
  · obtain ⟨operator, last⟩ := exists_lacking some_token short
    rw [error_of_map (ends.trans same), last]
    exact .inr (.inl ⟨known, short, operator, rfl, rfl⟩)
  · obtain ⟨⟨value, left⟩, found, rest⟩ := ok_of_map (ends.trans same)
    rw [found, ← rest]
    cases left with
    | nil => exact .inr (.inr (.inr ⟨known, done, rfl, value, rfl⟩))
    | cons extra later => exact .inr (.inr (.inl ⟨known, done, extra, later, rfl, rfl⟩))

/-- How the evaluation of a whole list of tokens ends, by the pass over them. -/
theorem evaluateTokens_iff (table : Table α) (tokens : List String) :
    (table.evaluateTokens tokens = .error .empty ↔ tokens = []) ∧
    (∀ token, table.evaluateTokens tokens = .error (.unresolvedOperand token) ↔
      (table.scan 1 tokens).read.find? table.unresolved = some token) ∧
    (∀ operator, table.evaluateTokens tokens = .error (.missingOperand operator) ↔
      (table.scan 1 tokens).read.find? table.unresolved = none ∧ 0 < (table.scan 1 tokens).need ∧
        (table.lacking tokens).getLast? = some operator) ∧
    (∀ token, table.evaluateTokens tokens = .error (.trailingToken token) ↔
      (table.scan 1 tokens).read.find? table.unresolved = none ∧ (table.scan 1 tokens).need = 0 ∧
        (table.scan 1 tokens).unread.head? = some token) ∧
    ((∃ value, table.evaluateTokens tokens = .ok value) ↔
      (table.scan 1 tokens).read.find? table.unresolved = none ∧ (table.scan 1 tokens).need = 0 ∧
        (table.scan 1 tokens).unread = []) := by
  by_cases nothing : tokens = []
  · obtain rfl := nothing
    have ends : table.evaluateTokens [] = .error .empty := rfl
    simp [ends, scan, lacking]
  · rcases table.evaluateTokens_cases nothing with
      ⟨token, unknown, ends⟩ | ⟨known, short, operator, last, ends⟩ |
      ⟨known, done, token, later, left, ends⟩ | ⟨known, done, left, value, ends⟩
    · simp [ends, nothing, unknown]
    · simp [ends, nothing, known, short, last, Nat.pos_of_ne_zero]
    · simp [ends, nothing, known, done, left]
    · simp [ends, nothing, known, done, left]

end Table

/--
What the evaluation of a text in Polish form says is wrong is what the pass over its tokens shows.
A name that has been read and has no value comes first, and the first of them is reported. If
operands are called for still, it is the operator read last of those whose operands are not
complete, and if tokens are left it is the first of them. The evaluation comes to its end with
whatever room it has for as many steps as there are tokens. Where the pass stops, the tokens that
come later make no difference and are left as they are.
-/
theorem evaluateStrict_iff (table : Table α) (text : String) :
    (table.evaluateStrict text = .error .empty ↔ tokensOf text = []) ∧
    (∀ token, table.evaluateStrict text = .error (.unresolvedOperand token) ↔
      (table.pass text).read.find? table.unresolved = some token) ∧
    (∀ operator, table.evaluateStrict text = .error (.missingOperand operator) ↔
      (table.pass text).read.find? table.unresolved = none ∧ 0 < (table.pass text).need ∧
        (table.lacking (tokensOf text)).getLast? = some operator) ∧
    (∀ token, table.evaluateStrict text = .error (.trailingToken token) ↔
      (table.pass text).read.find? table.unresolved = none ∧ (table.pass text).need = 0 ∧
        (table.pass text).unread.head? = some token) ∧
    ((∃ value, table.evaluateStrict text = .ok value) ↔
      (table.pass text).read.find? table.unresolved = none ∧ (table.pass text).need = 0 ∧
        (table.pass text).unread = []) ∧
    (∀ fuel, (tokensOf text).length ≤ fuel → table.descend fuel "" (tokensOf text) =
      table.descend (tokensOf text).length "" (tokensOf text)) ∧
    ((table.pass text).need = 0 → ∃ outcome : Except Error α, ∀ later fuel,
      ((table.pass text).read ++ later).length ≤ fuel →
      table.descend fuel "" ((table.pass text).read ++ later) =
        outcome.map fun value => (value, later)) := by
  obtain ⟨empty, unresolved, missing, trailing, done⟩ := table.evaluateTokens_iff (tokensOf text)
  exact ⟨empty, unresolved, missing, trailing, done,
    fun fuel enough => table.descend_fuel enough "", Table.descend_read⟩

/-- The disjunction has all its operands, so it is the conjunction that lacks one. -/
example : (Table.booleans fun _ => some true).evaluateStrict "and or A B" =
    .error (.missingOperand "and") := rfl

end Switchboard.Expr
