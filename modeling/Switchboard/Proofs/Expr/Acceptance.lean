import Switchboard.Proofs.Expr.Completeness
import Switchboard.Proofs.Expr.Precedence

/-!
# Which texts are accepted

An operator waits without regard to what stands on its left, and the
evaluation only asks whether every operator finds its operands. So positions
are not checked: an operator may stand before or behind its operands, and empty
parentheses go unnoticed. What is checked is the Polish form. The texts that
are accepted are those that are rearranged as an expression would be, and they
have its value. The expression has the operands of the text, in their order,
and its operators, perhaps in another.
-/
namespace Switchboard.Expr

open Switchboard.Text

universe u

variable {α : Type u} {table : Table α}

/-! ### Operands keep their order -/

namespace Table

variable {token : String} {tokens : List String} {state next : Shunting}

def isOperand (table : Table α) (token : String) : Bool :=
  match table.role token with
  | .operand => true
  | _ => false

theorem isOperand_of_role (role : table.role token = .operand) : table.isOperand token = true := by
  rw [isOperand, role]

theorem isOperand_operator {operator : Operator α} (role : table.role token = .operator operator) :
    table.isOperand token = false := by
  rw [isOperand, role]

theorem isSolid_of_isOperand (operand : table.isOperand token = true) : isSolid token = true := by
  refine isSolid_of_role table (fun role => ?_) fun role => ?_
  · rw [isOperand, role] at operand
    exact nomatch operand
  · rw [isOperand, role] at operand
    exact nomatch operand

theorem isSolid_of_arity (takes : 0 < table.arity token) : isSolid token = true := by
  refine isSolid_of_role table (fun role => ?_) fun role => ?_
  · rw [arity, role] at takes
    exact absurd takes (Nat.lt_irrefl 0)
  · rw [arity, role] at takes
    exact absurd takes (Nat.lt_irrefl 0)

/-- No operand waits. -/
def Operating (table : Table α) (waiting : List Waiting) : Prop :=
  ∀ token precedence, .operator token precedence ∈ waiting → table.isOperand token = false

theorem Operating.tail {first : Waiting} {waiting : List Waiting}
    (operating : table.Operating (first :: waiting)) : table.Operating waiting :=
  fun token precedence member => operating token precedence (List.mem_cons_of_mem _ member)

theorem Operating.opened {waiting : List Waiting} (operating : table.Operating waiting) :
    table.Operating (.parenthesis :: waiting) := by
  intro token precedence member
  rcases List.mem_cons.mp member with same | member
  · exact nomatch same
  · exact operating token precedence member

theorem Operating.push {waiting : List Waiting} (operating : table.Operating waiting)
    {operator : Operator α} (role : table.role token = .operator operator) (precedence : Nat) :
    table.Operating (.operator token precedence :: waiting) := by
  intro token' precedence' member
  rcases List.mem_cons.mp member with same | member
  · obtain ⟨rfl, -⟩ := Waiting.operator.inj same
    exact isOperand_operator role
  · exact operating token' precedence' member

theorem Operating.release {waiting : List Waiting} (operating : table.Operating waiting)
    (test : Nat → Bool) (done : List String) :
    table.Operating (release test waiting done).waiting ∧
      (Expr.release test waiting done).done.filter table.isOperand = done.filter table.isOperand := by
  refine release_keeps (P := fun waits does => table.Operating waits ∧
    does.filter table.isOperand = done.filter table.isOperand) ?_ test ⟨operating, rfl⟩
  rintro token precedence waits does ⟨operating, same⟩
  have idle := operating token precedence List.mem_cons_self
  refine ⟨operating.tail, ?_⟩
  rwa [List.filter_cons_of_neg (by rw [idle]; exact Bool.false_ne_true)]

/-- An operand is done at once, and nothing else that is done is one. -/
theorem shunt_operands (operating : table.Operating state.waiting)
    (shunts : table.shunt state token = .ok next) :
    table.Operating next.waiting ∧ next.done.filter table.isOperand =
      [token].filter table.isOperand ++ state.done.filter table.isOperand := by
  unfold shunt at shunts
  split at shunts
  · rename_i role
    obtain rfl := Except.ok.inj shunts
    have idle : table.isOperand token = false := by rw [isOperand, role]
    exact ⟨operating.opened, by rw [List.filter_singleton, idle]; rfl⟩
  · rename_i role
    have idle : table.isOperand token = false := by rw [isOperand, role]
    obtain ⟨left, same⟩ := operating.release (fun _ => true) state.done
    split at shunts
    · rename_i waiting done released
      obtain rfl := Except.ok.inj shunts
      rw [released] at left same
      exact ⟨left.tail, by rw [same, List.filter_singleton, idle]; rfl⟩
    · exact nomatch shunts
  · rename_i operator role
    obtain rfl := Except.ok.inj shunts
    obtain ⟨left, same⟩ := operating.release (operator.precedence < ·) state.done
    exact ⟨left.push role _, by rw [same, List.filter_singleton, isOperand_operator role]; rfl⟩
  · rename_i role
    obtain rfl := Except.ok.inj shunts
    exact ⟨operating, by rw [List.filter_cons, List.filter_singleton, isOperand_of_role role]; rfl⟩

theorem shuntAll_operands (operating : table.Operating state.waiting)
    (shunts : table.shuntAll state tokens = .ok next) :
    table.Operating next.waiting ∧ next.done.filter table.isOperand =
      (tokens.filter table.isOperand).reverse ++ state.done.filter table.isOperand := by
  induction tokens generalizing state with
  | nil =>
    obtain rfl := Except.ok.inj shunts
    exact ⟨operating, rfl⟩
  | cons token tokens ih =>
    rw [shuntAll] at shunts
    split at shunts
    · rename_i middle first
      obtain ⟨operating', here⟩ := shunt_operands operating first
      obtain ⟨operating'', later⟩ := ih operating' shunts
      refine ⟨operating'', ?_⟩
      rw [later, here, ← List.append_assoc, ← List.singleton_append (l := tokens),
        List.filter_append, List.reverse_append]
      congr 2
      rw [List.filter_singleton]
      cases table.isOperand token <;> rfl
    · cases shunts

/-- The operands of a Polish form are those of the infix form, from the right. -/
theorem polish_operands {polish : List String} (compiles : table.polish tokens = .ok polish) :
    polish.filter table.isOperand = (tokens.filter table.isOperand).reverse := by
  unfold Table.polish at compiles
  split at compiles
  · rename_i state shunts
    have nothing : table.Operating [] := nofun
    obtain ⟨operating, operands⟩ := shuntAll_operands nothing shunts
    obtain ⟨-, same⟩ := operating.release (fun _ => true) state.done
    unfold Shunting.finish at compiles
    split at compiles
    · rename_i done released
      obtain rfl := Except.ok.inj compiles
      rw [released] at same
      exact same.trans (operands.trans (List.append_nil _))
    · exact nomatch compiles
  · exact nomatch compiles

end Table

/-! ### Every Polish form is that of an expression -/

namespace Grouping

/-- A tree with all its parentheses. -/
def spelled : Grouping table → List String
  | .operand name => [name.token]
  | .unary sign inner => sign.token :: openMark :: (inner.spelled ++ [closeMark])
  | .binary sign left right =>
    (openMark :: (left.spelled ++ [closeMark])) ++
      sign.token :: openMark :: (right.spelled ++ [closeMark])

theorem groups_spelled (tree : Grouping table) : tree.Groups 0 tree.spelled := by
  induction tree with
  | operand name => exact .operand name 0
  | unary sign inner ih => exact .unary sign (Nat.zero_le _) (.enclosed _ ih)
  | binary sign left right ih ih' =>
    exact .binary sign (Nat.zero_le _) (.enclosed _ ih) (.enclosed _ ih')

theorem Groups.isExpression {tree : Grouping table} {level : Nat} {tokens : List String}
    (groups : tree.Groups level tokens) : table.IsExpression tokens := by
  induction groups with
  | operand name level => exact .operand name
  | unary sign _ _ ih => exact .unary sign ih
  | binary sign _ _ _ ih ih' => exact .binary sign ih ih'
  | enclosed level _ ih => exact .enclosed ih

/-- A tree has one operand more than operators of two operands. -/
theorem operands_polish (tree : Grouping table) :
    tree.polish.countP table.isOperand = tree.polish.countP (table.arity · == 2) + 1 := by
  induction tree with
  | operand name =>
    rw [polish, List.countP_singleton, List.countP_singleton,
      Table.isOperand_of_role name.role, name.arity]
    rfl
  | unary sign inner ih =>
    rw [polish, List.countP_cons, List.countP_cons, ih, Table.isOperand_operator sign.role,
      sign.arity]
    rfl
  | binary sign left right ih ih' =>
    rw [polish, List.countP_cons, List.countP_cons, List.countP_append, List.countP_append, ih, ih',
      Table.isOperand_operator sign.role, sign.arity, if_neg Bool.false_ne_true,
      if_pos (beq_self_eq_true 2)]
    omega

end Grouping

/-- Parentheses are not counted, nor are they in a Polish form. -/
theorem countP_polish {tokens polish : List String} (compiles : table.polish tokens = .ok polish)
    (test : String → Bool) (solid : ∀ token, test token = true → isSolid token = true) :
    polish.countP test = tokens.countP test := by
  rw [(Table.polish_perm compiles).countP_eq, List.countP_filter]
  refine List.countP_congr fun token _ => ?_
  rw [Bool.and_eq_true]
  exact ⟨fun both => both.1, fun counts => ⟨counts, solid token counts⟩⟩

/-- A text has a value if it is rearranged into the Polish form of a tree, and has the tree's. -/
theorem value_eq_ok_iff {assign : String → α}
    (known : ∀ token, table.resolve token = some (assign token)) {text : String} {value : α} :
    table.value text = .ok value ↔ ∃ tree : Grouping table,
      table.polish (tokenize text) = .ok tree.polish ∧ tree.value assign = value := by
  have words : ∀ token ∈ tokenize text, IsWord token.toList := fun _ => isWord_of_mem_tokenize
  have denotes (tree : Grouping table) : Denotes table tree.polish [tree.value assign] := by
    have all := tree.denotes (fun token _ _ => known token) .nil
    rwa [List.append_nil] at all
  constructor
  · intro accepted
    cases compiles : table.polish (tokenize text) with
    | error e =>
      rw [Table.value, Table.compile_of_error compiles] at accepted
      cases accepted
    | ok polish =>
      rw [Table.value_of_compile (Table.compile_of_polish compiles), Table.evaluateStrict,
        tokensOf_polish words compiles] at accepted
      have single := Table.evaluateTokens_eq_ok_iff.mp accepted
      have solid : ∀ token ∈ polish, isSolid token = true := fun token member =>
        (List.mem_filter.mp ((Table.polish_perm compiles).mem_iff.mp member)).2
      obtain ⟨tree, rfl⟩ := Grouping.exists_tree solid single.count
      exact ⟨tree, rfl, Except.ok.inj ((denotes tree).evaluateTokens.symm.trans accepted)⟩
  · rintro ⟨tree, compiles, rfl⟩
    exact (value_of_denotes rfl words compiles (denotes tree)).2

/-- An expression begins with no operator of two operands. -/
theorem Table.IsExpression.begins {tokens : List String} (expression : table.IsExpression tokens) :
    ∃ first rest, tokens = first :: rest ∧ ∀ sign : table.Binary, first ≠ sign.token := by
  induction expression with
  | operand name => exact ⟨_, _, rfl, name.ne_binary⟩
  | unary sign _ _ => exact ⟨_, _, rfl, sign.ne_binary⟩
  | binary sign _ _ ih _ =>
    obtain ⟨first, rest, rfl, free⟩ := ih
    exact ⟨first, _, rfl, free⟩
  | enclosed _ _ =>
    refine ⟨openMark, _, rfl, fun sign same => ?_⟩
    exact nomatch (Table.role_opening_iff.mpr same.symm).symm.trans sign.role

/-- Logic over truth values in which every operand has one. -/
def Table.assigning (assign : String → Bool) : Table Bool := .booleans fun token => some (assign token)

/--
The texts that are accepted are those that are rearranged as an expression is. Any such expression
has the value of the text, the same operands in the same order, and the same operators up to their
order. So there is one operand more than operators of two operands.
-/
theorem accepted_iff_expression (assign : String → Bool) (text : String) :
    ((∃ value, (Table.assigning assign).value text = .ok value) ↔
      ∃ tokens, (Table.assigning assign).IsExpression tokens ∧
        (Table.assigning assign).polish tokens = (Table.assigning assign).polish (tokenize text)) ∧
    (∀ tokens, (Table.assigning assign).IsExpression tokens →
      (Table.assigning assign).polish tokens = (Table.assigning assign).polish (tokenize text) →
      (∃ tree : Grouping (Table.assigning assign), tree.Groups 0 tokens ∧
        (Table.assigning assign).value text = .ok (tree.value assign)) ∧
      tokens.filter (Table.assigning assign).isOperand =
        (tokenize text).filter (Table.assigning assign).isOperand ∧
      (tokens.filter isSolid).Perm ((tokenize text).filter isSolid)) ∧
    ((∃ value, (Table.assigning assign).value text = .ok value) →
      (tokenize text).countP (Table.assigning assign).isOperand =
        (tokenize text).countP ((Table.assigning assign).arity · == 2) + 1) := by
  have known : ∀ token, (Table.assigning assign).resolve token = some (assign token) :=
    fun _ => rfl
  have tightest : (Table.assigning assign).UnaryTightest := Table.logic_unaryTightest _ _ _ _
  refine ⟨⟨?_, ?_⟩, ?_, ?_⟩
  · rintro ⟨value, accepted⟩
    obtain ⟨tree, compiles, -⟩ := (value_eq_ok_iff known).mp accepted
    have groups := tree.groups_spelled
    exact ⟨tree.spelled, groups.isExpression, groups.polish.trans compiles.symm⟩
  · rintro ⟨tokens, expression, alike⟩
    obtain ⟨tree, groups⟩ := expression.exists_groups tightest
    exact ⟨tree.value assign,
      (value_eq_ok_iff known).mpr ⟨tree, alike.symm.trans groups.polish, rfl⟩⟩
  · intro tokens expression alike
    obtain ⟨tree, groups⟩ := expression.exists_groups tightest
    have compiles := alike.symm.trans groups.polish
    refine ⟨⟨tree, groups, (value_eq_ok_iff known).mpr ⟨tree, compiles, rfl⟩⟩, ?_, ?_⟩
    · have backwards :=
        (Table.polish_operands groups.polish).symm.trans (Table.polish_operands compiles)
      exact List.reverse_injective backwards
    · exact (Table.polish_perm groups.polish).symm.trans (Table.polish_perm compiles)
  · rintro ⟨value, accepted⟩
    obtain ⟨tree, compiles, -⟩ := (value_eq_ok_iff known).mp accepted
    have operands := countP_polish compiles (Table.assigning assign).isOperand
      fun _ => Table.isSolid_of_isOperand
    have binaries := countP_polish compiles ((Table.assigning assign).arity · == 2)
      fun _ two => Table.isSolid_of_arity (Nat.lt_of_lt_of_eq Nat.two_pos (eq_of_beq two).symm)
    rw [← operands, ← binaries]
    exact tree.operands_polish

namespace Displaced

def logic : Table Bool := .assigning (· != "C")

def conjunction : logic.Binary := ⟨"and", 2, (· && ·), Nat.two_pos, rfl⟩

def disjunction : logic.Binary := ⟨"or", 1, (· || ·), Nat.one_pos, rfl⟩

def a : logic.Operand := ⟨"A", rfl⟩

def b : logic.Operand := ⟨"B", rfl⟩

def c : logic.Operand := ⟨"C", rfl⟩

theorem expression : logic.IsExpression ["A", "or", "B", "and", "C"] :=
  .binary disjunction (.operand a) (.binary conjunction (.operand b) (.operand c))

end Displaced

/-- Where the operators stand does not matter, as long as they are let go in the same order. -/
theorem accepted_iff_expression_displaced :
    (∃ value, Displaced.logic.value "or and A () B C" = .ok value) ∧
      (tokenize "or and A () B C").countP Displaced.logic.isOperand =
        (tokenize "or and A () B C").countP (Displaced.logic.arity · == 2) + 1 := by
  have alike : Displaced.logic.polish ["A", "or", "B", "and", "C"] =
      Displaced.logic.polish (tokenize "or and A () B C") := by decide
  obtain ⟨accepted, _, counted⟩ := accepted_iff_expression (· != "C") "or and A () B C"
  have value := accepted.mpr ⟨_, Displaced.expression, alike⟩
  exact ⟨value, counted value⟩

/-- An operator before its operands and empty parentheses go unnoticed. -/
theorem not_expression_of_accepted :
    (Table.assigning fun _ => true).value "and () A B" = .ok true ∧
      ¬(Table.assigning fun _ => true).IsExpression (tokenize "and () A B") := by
  refine ⟨by decide, fun expression => ?_⟩
  have cut : tokenize "and () A B" = ["and", "(", ")", "A", "B"] := by decide
  rw [cut] at expression
  obtain ⟨first, rest, same, free⟩ := expression.begins
  obtain ⟨rfl, -⟩ := List.cons.inj same
  exact free ⟨"and", 2, (· && ·), Nat.two_pos, rfl⟩ rfl

end Switchboard.Expr
