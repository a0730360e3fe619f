import Switchboard.Proofs.Expr.Grammar

/-!
# How precedence groups

A tree binds at least as tight as a level if the operators outside parentheses
do. The left operand of a binary operator binds tighter than the operator, the
right one as tight or tighter, so equal precedence groups from the right.

Tokens that are grouped in this way are rearranged into the Polish form of the
tree, for every table. If the unary operators bind tightest, every expression
can be grouped, and in one way only: the tree is found again in its Polish form.
-/
namespace Switchboard.Expr

open Switchboard.Text

universe u

variable {α : Type u} {table : Table α}

namespace Grouping

/-- How a tree is written where something that binds at least as tight as a level is asked for. -/
inductive Groups : Grouping table → Nat → List String → Prop where
  | operand (name : table.Operand) (level : Nat) : Groups (.operand name) level [name.token]
  | unary (sign : table.Unary) {inner : Grouping table} {level : Nat} {tokens : List String}
      (tight : level ≤ sign.precedence) (operand : Groups inner sign.precedence tokens) :
      Groups (.unary sign inner) level (sign.token :: tokens)
  | binary (sign : table.Binary) {left right : Grouping table} {level : Nat}
      {tokens tokens' : List String} (tight : level ≤ sign.precedence)
      (first : Groups left (sign.precedence + 1) tokens)
      (second : Groups right sign.precedence tokens') :
      Groups (.binary sign left right) level (tokens ++ sign.token :: tokens')
  | enclosed {tree : Grouping table} (level : Nat) {tokens : List String}
      (inner : Groups tree 0 tokens) : Groups tree level (openMark :: (tokens ++ [closeMark]))

namespace Groups

variable {tree : Grouping table} {level : Nat} {tokens : List String}

/--
While the tokens are taken into account, what binds no tighter than the level keeps waiting. The
operators of the tree that wait in the end are what is missing from its Polish form.
-/
theorem shuntAll (groups : tree.Groups level tokens) {waiting : List Waiting}
    (held : Held level waiting) (done : List String) :
    ∃ pending done', table.shuntAll ⟨waiting, done⟩ tokens = .ok ⟨inLine pending ++ waiting, done'⟩ ∧
      (∀ entry ∈ pending, level ≤ entry.2) ∧
      (pending.map Prod.fst).reverse ++ done' = tree.polish ++ done := by
  induction groups generalizing waiting done with
  | operand name level =>
    refine ⟨[], name.token :: done, ?_, nofun, rfl⟩
    rw [Table.shuntAll_cons (Table.shunt_operand name.role _)]
    rfl
  | @unary sign inner level tokens tight _ ih =>
    have held' : Held sign.precedence waiting := held.mono tight
    have pushed := Table.shunt_operator sign.role ⟨waiting, done⟩
    rw [release_held held'] at pushed
    obtain ⟨pending, done', shunts, tighter, rearranged⟩ :=
      ih (held_operator (Nat.le_refl _) sign.token waiting) done
    refine ⟨pending ++ [(sign.token, sign.precedence)], done', ?_, ?_, ?_⟩
    · rw [Table.shuntAll_cons pushed, inLine_snoc]
      exact shunts
    · refine List.forall_mem_append.mpr ⟨fun entry member => ?_, List.forall_mem_singleton.mpr tight⟩
      exact Nat.le_trans tight (tighter entry member)
    · rw [List.map_append, List.reverse_append, List.append_assoc, rearranged]
      rfl
  | @binary sign left right level tokens tokens' tight _ _ ih ih' =>
    have held' : Held sign.precedence waiting := held.mono tight
    obtain ⟨pending, done', shunts, tighter, rearranged⟩ :=
      ih (held'.mono (Nat.le_succ _)) done
    -- The left operand is complete: all its operators bind tighter and are let go.
    have released : release (sign.precedence < ·) (inLine pending ++ waiting) done' =
        ⟨waiting, left.polish ++ done⟩ := by
      rw [release_inLine fun entry member => decide_eq_true (tighter entry member), rearranged,
        release_held held']
    have pushed := Table.shunt_operator sign.role ⟨inLine pending ++ waiting, done'⟩
    rw [released] at pushed
    obtain ⟨pending', done'', shunts', tighter', rearranged'⟩ :=
      ih' (held_operator (Nat.le_refl _) sign.token waiting) (left.polish ++ done)
    refine ⟨pending' ++ [(sign.token, sign.precedence)], done'', ?_, ?_, ?_⟩
    · rw [shuntAll_append shunts, Table.shuntAll_cons pushed, inLine_snoc]
      exact shunts'
    · refine List.forall_mem_append.mpr ⟨fun entry member => ?_, List.forall_mem_singleton.mpr tight⟩
      exact Nat.le_trans tight (tighter' entry member)
    · rw [List.map_append, List.reverse_append, List.append_assoc, rearranged', polish,
        List.cons_append, List.append_assoc]
      rfl
  | @enclosed tree level tokens _ ih =>
    obtain ⟨pending, done', shunts, _, rearranged⟩ := ih (held_parenthesis waiting) done
    have released : release (fun _ => true) (inLine pending ++ .parenthesis :: waiting) done' =
        ⟨.parenthesis :: waiting, tree.polish ++ done⟩ := by
      rw [release_inLine fun _ _ => rfl, rearranged]
      rfl
    refine ⟨[], tree.polish ++ done, ?_, nofun, rfl⟩
    rw [Table.shuntAll_cons (Table.shunt_opening table _), shuntAll_append shunts,
      Table.shuntAll_cons (Table.shunt_closing table released)]
    rfl

theorem polish (groups : tree.Groups level tokens) : table.polish tokens = .ok tree.polish := by
  obtain ⟨pending, done, shunts, _, rearranged⟩ := groups.shuntAll held_nil []
  refine Table.polish_of_shuntAll shunts ?_
  rw [release_inLine fun _ _ => rfl, rearranged, List.append_nil]
  rfl

/-- The same tokens are not grouped in two ways. -/
theorem unique {tree' : Grouping table} {level' : Nat} (groups : tree.Groups level tokens)
    (groups' : tree'.Groups level' tokens) : tree = tree' := by
  have same := Except.ok.inj (groups.polish.symm.trans groups'.polish)
  have same' : tree.polish ++ [] = tree'.polish ++ [] := congrArg (· ++ []) same
  exact (eq_of_polish same').1

end Groups

end Grouping

/-- All unary operators have one precedence, and it is above those of the binary ones. -/
structure Table.UnaryTightest (table : Table α) : Prop where
  same : ∀ sign sign' : table.Unary, sign.precedence = sign'.precedence
  above : ∀ (sign : table.Unary) (sign' : table.Binary), sign'.precedence < sign.precedence

/-- What is computed does not matter: logic has its tokens and precedences over any values. -/
theorem Table.logic_unaryTightest (negation : α → α) (conjunction disjunction : α → α → α)
    (resolve : String → Option α) :
    (Table.logic negation conjunction disjunction resolve).UnaryTightest := by
  have unary (sign : (Table.logic negation conjunction disjunction resolve).Unary) :
      sign.precedence = 3 := by
    have member := Table.entry_of_role sign.role
    simp only [Table.logic, List.mem_cons, List.not_mem_nil, or_false, Prod.mk.injEq,
      Operator.mk.injEq, reduceCtorEq, and_false] at member
    exact member.2.1
  have binary (sign : (Table.logic negation conjunction disjunction resolve).Binary) :
      sign.precedence < 3 := by
    have member := Table.entry_of_role sign.role
    simp only [Table.logic, List.mem_cons, List.not_mem_nil, or_false, Prod.mk.injEq,
      Operator.mk.injEq, reduceCtorEq, and_false, false_or] at member
    rcases member with ⟨_, level, _⟩ | ⟨_, level, _⟩
    · exact level ▸ (by decide : 2 < 3)
    · exact level ▸ (by decide : 1 < 3)
  refine ⟨fun sign sign' => (unary sign).trans (unary sign').symm, fun sign sign' => ?_⟩
  rw [unary sign]
  exact binary sign'

namespace Grouping.Groups

variable {left right : Grouping table} {level low : Nat} {tokens tokens' : List String}

/-- A unary operator takes hold of the first operand that comes. -/
theorem signed (tightest : table.UnaryTightest) (sign : table.Unary)
    (groups : right.Groups level tokens) (tight : level ≤ sign.precedence) :
    ∃ tree : Grouping table, tree.Groups level (sign.token :: tokens) := by
  induction groups with
  | operand name level => exact ⟨_, .unary sign tight (.operand name _)⟩
  | unary sign' _ operand =>
    have as_tight : sign.precedence ≤ sign'.precedence := Nat.le_of_eq (tightest.same sign sign')
    exact ⟨_, .unary sign tight (.unary sign' as_tight operand)⟩
  | binary sign' tight' first second ih =>
    obtain ⟨left, groups⟩ := ih (tightest.above sign sign')
    exact ⟨_, .binary sign' tight' groups second⟩
  | enclosed level inner => exact ⟨_, .unary sign tight (.enclosed _ inner)⟩

/--
What binds tighter than a binary operator is its left operand, or that of an operator in it, when
the operator is put between the two.
-/
theorem joined_tight (tightest : table.UnaryTightest) (sign : table.Binary)
    (first : left.Groups (sign.precedence + 1) tokens) (second : right.Groups low tokens')
    (tight : low ≤ sign.precedence) :
    ∃ tree : Grouping table, tree.Groups low (tokens ++ sign.token :: tokens') := by
  induction second with
  | operand name level => exact ⟨_, .binary sign tight first (.operand name _)⟩
  | unary sign' _ operand =>
    have tighter : sign.precedence ≤ sign'.precedence := Nat.le_of_lt (tightest.above sign' sign)
    exact ⟨_, .binary sign tight first (.unary sign' tighter operand)⟩
  | @binary sign' left' right' low tokens₁ tokens₂ tight' first' second' ih =>
    rcases Nat.lt_or_ge sign'.precedence sign.precedence with looser | tighter
    · obtain ⟨tree, groups⟩ := ih looser
      have all := Groups.binary sign' tight' groups second'
      rw [List.append_assoc, List.cons_append] at all
      exact ⟨_, all⟩
    · exact ⟨_, .binary sign tight first (.binary sign' tighter first' second')⟩
  | enclosed level inner => exact ⟨_, .binary sign tight first (.enclosed _ inner)⟩

/-- Two trees can be joined by a binary operator, whatever it finds on its sides. -/
theorem joined (tightest : table.UnaryTightest) (sign : table.Binary)
    (first : left.Groups level tokens) (second : right.Groups low tokens') (le : low ≤ level)
    (tight : low ≤ sign.precedence) :
    ∃ tree : Grouping table, tree.Groups low (tokens ++ sign.token :: tokens') := by
  induction first with
  | operand name level => exact joined_tight tightest sign (.operand name _) second tight
  | unary sign' _ operand =>
    have tighter : sign.precedence < sign'.precedence := tightest.above sign' sign
    exact joined_tight tightest sign (.unary sign' tighter operand) second tight
  | @binary sign' left' right' level tokens₁ tokens₂ tight' first' second' _ ih' =>
    rcases Nat.lt_or_ge sign.precedence sign'.precedence with tighter | looser
    · exact joined_tight tightest sign (.binary sign' tighter first' second') second tight
    · -- The operator belongs to the right operand of the one on its left.
      obtain ⟨tree, groups⟩ := ih' (Nat.le_trans le tight')
      rw [List.append_assoc, List.cons_append]
      exact joined_tight tightest sign' first' groups (Nat.le_trans le tight')
  | enclosed level inner => exact joined_tight tightest sign (.enclosed _ inner) second tight

end Grouping.Groups

/-- Every expression can be grouped if the unary operators bind tightest. -/
theorem Table.IsExpression.exists_groups (tightest : table.UnaryTightest) {tokens : List String}
    (expression : table.IsExpression tokens) :
    ∃ tree : Grouping table, tree.Groups 0 tokens := by
  induction expression with
  | operand name => exact ⟨_, .operand name 0⟩
  | unary sign _ ih =>
    obtain ⟨tree, groups⟩ := ih
    exact groups.signed tightest sign (Nat.zero_le _)
  | binary sign _ _ ih ih' =>
    obtain ⟨left, first⟩ := ih
    obtain ⟨right, second⟩ := ih'
    exact first.joined tightest sign second (Nat.le_refl 0) (Nat.zero_le _)
  | enclosed _ ih =>
    obtain ⟨tree, inner⟩ := ih
    exact ⟨tree, .enclosed 0 inner⟩

/--
Where unary operators bind tightest, every expression is grouped in one way, and its Polish form has
the value of that tree, whatever the operators compute.
-/
theorem value_of_expression (tightest : table.UnaryTightest) {tokens : List String}
    (expression : table.IsExpression tokens) (words : ∀ token ∈ tokens, IsWord token.toList)
    {assign : String → α}
    (known : ∀ token ∈ tokens, table.role token = .operand →
      table.resolve token = some (assign token)) :
    ∃ (tree : Grouping table) (polish : List String), tree.Groups 0 tokens ∧
      (∀ tree' : Grouping table, tree'.Groups 0 tokens → tree' = tree) ∧
      table.polish tokens = .ok polish ∧
      table.evaluate (joinStrings " " polish) = some (tree.value assign) ∧
      table.evaluateStrict (joinStrings " " polish) = .ok (tree.value assign) := by
  obtain ⟨tree, groups⟩ := expression.exists_groups tightest
  have subset := polish_mem groups.polish
  have found : tokensOf (joinStrings " " tree.polish) = tree.polish :=
    tokensOf_joinStrings fun token member => words token (subset token member)
  have denotes := tree.denotes (fun token member => known token (subset token member)) .nil
  rw [List.append_nil] at denotes
  refine ⟨tree, tree.polish, groups, fun tree' groups' => groups'.unique groups, groups.polish, ?_, ?_⟩
  · rw [Table.evaluate, found, denotes.stackOf]
  · rw [Table.evaluateStrict, found, denotes.evaluateTokens]

namespace Reckoned

def assign (token : String) : Int :=
  if token = "a" then 7 else if token = "b" then 5 else 1

/-- The tokens of logic over numbers: a disjunction is a difference, a conjunction a product. -/
def numbers : Table Int :=
  .logic (fun a => -a) (fun right left => left * right) (fun right left => left - right)
    fun token => some (assign token)

def negative : numbers.Unary := ⟨"not", 3, fun a => -a, Nat.succ_pos 2, rfl⟩

def times : numbers.Binary := ⟨"and", 2, fun right left => left * right, Nat.two_pos, rfl⟩

def minus : numbers.Binary := ⟨"or", 1, fun right left => left - right, Nat.one_pos, rfl⟩

def a : numbers.Operand := ⟨"a", rfl⟩

def b : numbers.Operand := ⟨"b", rfl⟩

def c : numbers.Operand := ⟨"c", rfl⟩

def tokens : List String := ["not", "a", "or", "b", "and", "(", "b", "or", "c", ")", "or", "c"]

theorem expression : numbers.IsExpression tokens :=
  .binary minus (.unary negative (.operand a))
    (.binary minus
      (.binary times (.operand b) (.enclosed (.binary minus (.operand b) (.operand c))))
      (.operand c))

/-- The second difference is subtracted from the first operand as a whole. -/
def tree : Grouping numbers :=
  .binary minus (.unary negative (.operand a))
    (.binary minus (.binary times (.operand b) (.binary minus (.operand b) (.operand c)))
      (.operand c))

theorem groups : tree.Groups 0 tokens :=
  .binary minus (by decide) (.unary negative (by decide) (.operand a _))
    (.binary minus (by decide)
      (.binary times (by decide) (.operand b _)
        (.enclosed _ (.binary minus (by decide) (.operand b _) (.operand c _))))
      (.operand c _))

end Reckoned

/-- Equal precedence groups from the right, and no two operands are exchanged. -/
theorem value_of_expression_reckoned :
    Reckoned.numbers.polish Reckoned.tokens =
        .ok ["or", "or", "c", "and", "or", "c", "b", "b", "not", "a"] ∧
      Reckoned.numbers.evaluate "or or c and or c b b not a" = some (-7 - (5 * (5 - 1) - 1)) ∧
      Reckoned.numbers.evaluateStrict "or or c and or c b b not a" =
        .ok (-7 - (5 * (5 - 1) - 1)) := by
  have words : ∀ token ∈ Reckoned.tokens, IsWord token.toList := areWords_of_all (by decide)
  obtain ⟨tree, polish, _, unique, compiles, value, strict⟩ :=
    value_of_expression (Table.logic_unaryTightest _ _ _ _) Reckoned.expression words fun _ _ _ => rfl
  obtain rfl := unique Reckoned.tree Reckoned.groups
  obtain rfl := Except.ok.inj (Reckoned.groups.polish.symm.trans compiles)
  exact ⟨compiles, value, strict⟩

end Switchboard.Expr
