import Switchboard.Proofs.Expr.Polish

/-!
# Infix texts mean what they say

A boolean expression is written down with the parentheses that precedence asks
for, and any others. While its tokens are rearranged, operators wait; those
that bind tighter than the expression's own level are let go in the end, and
what waits then is one operator several times. Since conjunction and
disjunction may be regrouped and turned around, its operands make up the value
of the expression however they have been grouped.
-/
namespace Switchboard.Expr

open Switchboard.Text

/-- A word that can stand for a value. -/
structure OperandWord where
  text : String
  plain : IsPlain text
  free : text ≠ "not" ∧ text ≠ "and" ∧ text ≠ "or"

/-- A boolean expression. -/
inductive Tree where
  | operand (word : OperandWord)
  | negation (tree : Tree)
  | conjunction (left right : Tree)
  | disjunction (left right : Tree)

namespace Tree

/-- The value of an expression from the values of its operands. -/
def value (assign : String → Bool) : Tree → Bool
  | .operand word => assign word.text
  | .negation tree => !tree.value assign
  | .conjunction left right => left.value assign && right.value assign
  | .disjunction left right => left.value assign || right.value assign

def operands : Tree → List String
  | .operand word => [word.text]
  | .negation tree => tree.operands
  | .conjunction left right => left.operands ++ right.operands
  | .disjunction left right => left.operands ++ right.operands

/--
How an expression can be written where something that binds at least as tight as a level is asked
for: disjunctions have level 1, conjunctions 2 and negations 3; what is in parentheses has level 4,
and so have operands.
-/
inductive Writes : Tree → Nat → List String → Prop where
  | operand (word : OperandWord) : Writes (.operand word) 4 [word.text]
  | negation {tree : Tree} {tokens : List String} (inner : Writes tree 3 tokens) :
      Writes (.negation tree) 3 ("not" :: tokens)
  | conjunction {left right : Tree} {tokens tokens' : List String} (first : Writes left 2 tokens)
      (second : Writes right 2 tokens') :
      Writes (.conjunction left right) 2 (tokens ++ "and" :: tokens')
  | disjunction {left right : Tree} {tokens tokens' : List String} (first : Writes left 1 tokens)
      (second : Writes right 1 tokens') :
      Writes (.disjunction left right) 1 (tokens ++ "or" :: tokens')
  | enclosed {tree : Tree} {tokens : List String} (inner : Writes tree 1 tokens) :
      Writes tree 4 (openMark :: (tokens ++ [closeMark]))
  | tighter {tree : Tree} {level : Nat} {tokens : List String}
      (inner : Writes tree (level + 2) tokens) : Writes tree (level + 1) tokens

theorem Writes.tokens {tree : Tree} {level : Nat} {tokens : List String}
    (writes : tree.Writes level tokens) : ∀ token ∈ tokens, IsMark token ∨ IsPlain token := by
  have plain_not : IsPlain "not" := isPlain_of_all (by decide) (by decide)
  have plain_and : IsPlain "and" := isPlain_of_all (by decide) (by decide)
  have plain_or : IsPlain "or" := isPlain_of_all (by decide) (by decide)
  induction writes with
  | operand word => exact List.forall_mem_singleton.mpr (.inr word.plain)
  | negation _ ih => exact List.forall_mem_cons.mpr ⟨.inr plain_not, ih⟩
  | conjunction _ _ ih ih' =>
    exact List.forall_mem_append.mpr ⟨ih, List.forall_mem_cons.mpr ⟨.inr plain_and, ih'⟩⟩
  | disjunction _ _ ih ih' =>
    exact List.forall_mem_append.mpr ⟨ih, List.forall_mem_cons.mpr ⟨.inr plain_or, ih'⟩⟩
  | enclosed _ ih =>
    refine List.forall_mem_cons.mpr ⟨.inl (.inl rfl), List.forall_mem_append.mpr ⟨ih, ?_⟩⟩
    exact List.forall_mem_singleton.mpr (.inl (.inr rfl))
  | tighter _ ih => exact ih

end Tree

/-- The operator of a level. -/
def operatorAt : Nat → String
  | 1 => "or"
  | 2 => "and"
  | 3 => "not"
  | _ => ""

/-- The operator of a level, waiting. -/
def waitingAt (level : Nat) : Waiting := .operator (operatorAt level) level

theorem release_waitingAt {test : Nat → Bool} {level : Nat} (goes : test level = true) (n : Nat)
    (waiting : List Waiting) (done : List String) :
    release test (List.replicate n (waitingAt level) ++ waiting) done =
      release test waiting (List.replicate n (operatorAt level) ++ done) := by
  have line : List.replicate n (waitingAt level) =
      inLine (List.replicate n (operatorAt level, level)) := by
    rw [inLine, List.map_replicate, waitingAt]
  have all_go : ∀ entry ∈ List.replicate n (operatorAt level, level), test entry.2 = true := by
    intro entry member
    rw [List.eq_of_mem_replicate member]
    exact goes
  rw [line, release_inLine all_go, List.map_replicate, List.reverse_replicate]

/-- What the operator of a level makes of values. -/
def operate : Nat → List Bool → Option (List Bool)
  | 1, a :: b :: values => some ((a || b) :: values)
  | 2, a :: b :: values => some ((a && b) :: values)
  | 3, a :: values => some ((!a) :: values)
  | _, _ => none

/-- The operator of a level, several times. -/
def operateAll (level : Nat) : Nat → List Bool → Option (List Bool)
  | 0, values => some values
  | n + 1, values => (operate level values).bind (operateAll level n)

theorem operateAll_add (level m n : Nat) (values : List Bool) :
    operateAll level (m + n) values = (operateAll level m values).bind (operateAll level n) := by
  induction m generalizing values with
  | zero =>
    rw [Nat.zero_add]
    rfl
  | succ m ih =>
    rw [Nat.succ_add, operateAll, operateAll]
    cases operate level values with
    | none => rfl
    | some next => exact ih next

/-- One more operand for an operator that can be regrouped and turned around. -/
theorem operateAll_cons {level : Nat} {f : Bool → Bool → Bool}
    (joins : ∀ a b values, operate level (a :: b :: values) = some (f a b :: values))
    (short : ∀ values, values.length < 2 → operate level values = none)
    (assoc : ∀ a b c, f (f a b) c = f a (f b c)) (comm : ∀ a b, f a b = f b a) {n : Nat}
    {pending values : List Bool} {a : Bool} (b : Bool)
    (makes : operateAll level n pending = some (a :: values)) :
    operateAll level (n + 1) (b :: pending) = some (f a b :: values) := by
  induction n generalizing pending b with
  | zero =>
    obtain rfl := Option.some.inj makes
    rw [operateAll, joins, comm]
    rfl
  | succ n ih =>
    rw [operateAll] at makes
    match pending with
    | [] =>
      rw [short [] (by decide)] at makes
      exact nomatch makes
    | [c] =>
      rw [short [c] (by simp)] at makes
      exact nomatch makes
    | c :: d :: rest =>
      rw [joins, Option.bind_some] at makes
      have regrouped := ih b makes
      rw [operateAll, joins, Option.bind_some, operateAll, joins, assoc]
      rw [operateAll, joins] at regrouped
      exact regrouped

section Shunting

variable {resolve : String → Option Bool}

theorem Denotes.operate {done : List String} {values values' : List Bool} {level : Nat}
    (denotes : Denotes (.booleans resolve) done values)
    (makes : Expr.operate level values = some values') :
    Denotes (.booleans resolve) (operatorAt level :: done) values' := by
  unfold Expr.operate at makes
  split at makes
  · obtain rfl := Option.some.inj makes
    exact .binary rfl denotes
  · obtain rfl := Option.some.inj makes
    exact .binary rfl denotes
  · obtain rfl := Option.some.inj makes
    exact .unary rfl denotes
  · exact nomatch makes

theorem Denotes.operateAll {done : List String} {values values' : List Bool} {level n : Nat}
    (denotes : Denotes (.booleans resolve) done values)
    (makes : Expr.operateAll level n values = some values') :
    Denotes (.booleans resolve) (List.replicate n (operatorAt level) ++ done) values' := by
  induction n generalizing done values with
  | zero =>
    obtain rfl := Option.some.inj makes
    exact denotes
  | succ n ih =>
    obtain ⟨next, first, later⟩ := Option.bind_eq_some_iff.mp makes
    have there := ih (denotes.operate first) later
    rw [List.replicate_succ', List.append_assoc, List.singleton_append]
    exact there

/--
What has been made of an expression: when the tighter operators have been let go, the operator of
the level waits a number of times above what has waited before, and its operands make up the value.
-/
def Gathered (resolve : String → Option Bool) (level : Nat) (waiting : List Waiting)
    (value : Bool) (values : List Bool) (state : Shunting) : Prop :=
  ∃ n done pending,
    release (level < ·) state.waiting state.done =
      ⟨List.replicate n (waitingAt level) ++ waiting, done⟩ ∧
    Denotes (.booleans resolve) done pending ∧
    operateAll level n pending = some (value :: values)

/-- If the operator of the level is let go as well, the value is there. -/
theorem Gathered.release {level : Nat} {waiting : List Waiting} {value : Bool}
    {values : List Bool} {state : Shunting} (gathered : Gathered resolve level waiting value values state)
    {test : Nat → Bool} (goes : ∀ p, level ≤ p → test p = true)
    (stays : ∀ done, Expr.release test waiting done = ⟨waiting, done⟩) :
    ∃ done, Expr.release test state.waiting state.done = ⟨waiting, done⟩ ∧
      Denotes (.booleans resolve) done (value :: values) := by
  obtain ⟨n, done, pending, released, denotes, makes⟩ := gathered
  refine ⟨List.replicate n (operatorAt level) ++ done, ?_, denotes.operateAll makes⟩
  have weaker : ∀ p, decide (level < p) = true → test p = true := by
    intro p tighter
    exact goes p (Nat.le_of_lt (of_decide_eq_true tighter))
  rw [← release_release weaker, released, release_waitingAt (goes level (Nat.le_refl _)), stays]

theorem gathered_of_done {level : Nat} {waiting : List Waiting} {done : List String} {value : Bool}
    {values : List Bool} (held : Held level waiting)
    (denotes : Denotes (.booleans resolve) done (value :: values)) :
    Gathered resolve level waiting value values ⟨waiting, done⟩ :=
  ⟨0, done, value :: values, release_held held done, denotes, rfl⟩

theorem role_operand (resolve : String → Option Bool) (word : OperandWord) :
    (Table.booleans resolve).role word.text = .operand := by
  obtain ⟨text, ⟨_, plain⟩, no_not, no_and, no_or⟩ := word
  have no_open : text ≠ openMark := by
    rintro rfl
    exact (plain '(' (by decide)).1 rfl
  have no_close : text ≠ closeMark := by
    rintro rfl
    exact (plain ')' (by decide)).2 rfl
  have nothing : (Table.booleans resolve).find? text = none := by
    simp only [Table.find?, Table.booleans, Table.logic, List.lookup_cons, List.lookup_nil,
      beq_eq_false_iff_ne.mpr no_not, beq_eq_false_iff_ne.mpr no_and, beq_eq_false_iff_ne.mpr no_or]
  simp only [Table.role, if_neg no_open, if_neg no_close, nothing]

/-- An operator of two operands: what stands before it has been gathered, what follows will be. -/
theorem gather_joined {level : Nat} {f : Bool → Bool → Bool} {positive : 0 < level}
    (role : (Table.booleans resolve).role (operatorAt level) =
      .operator ⟨level, .binary f, positive⟩)
    (joins : ∀ a b values, operate level (a :: b :: values) = some (f a b :: values))
    (short : ∀ values, values.length < 2 → operate level values = none)
    (assoc : ∀ a b c, f (f a b) c = f a (f b c)) (comm : ∀ a b, f a b = f b a)
    {waiting : List Waiting} {a b : Bool} {values : List Bool} {state : Shunting}
    (left : Gathered resolve level waiting a values state) {tokens' : List String}
    (right : ∀ waiting' done pending, Held level waiting' →
      Denotes (.booleans resolve) done pending →
      ∃ next, (Table.booleans resolve).shuntAll ⟨waiting', done⟩ tokens' = .ok next ∧
        Gathered resolve level waiting' b pending next) :
    ∃ next, (Table.booleans resolve).shuntAll state (operatorAt level :: tokens') = .ok next ∧
      Gathered resolve level waiting (f a b) values next := by
  obtain ⟨n, done, pending, released, denotes, makes⟩ := left
  have held : Held level (waitingAt level :: (List.replicate n (waitingAt level) ++ waiting)) :=
    held_operator (Nat.le_refl level) (operatorAt level) _
  obtain ⟨next, shunts, m, done', pending', released', denotes', makes'⟩ :=
    right _ done pending held denotes
  have pushed : (Table.booleans resolve).shunt state (operatorAt level) =
      .ok ⟨waitingAt level :: (List.replicate n (waitingAt level) ++ waiting), done⟩ := by
    rw [Table.shunt, role]
    simp only [released]
    rfl
  refine ⟨next, ?_, m + (n + 1), done', pending', ?_, denotes', ?_⟩
  · rw [Table.shuntAll, pushed]
    exact shunts
  · rw [released', ← List.replicate_append_replicate, List.replicate_succ, List.append_assoc, List.cons_append]
  · rw [operateAll_add, makes', Option.bind_some]
    exact operateAll_cons joins short assoc comm b makes

/-- While the tokens of an expression are taken into account, its value is gathered. -/
theorem gather {tree : Tree} {level : Nat} {tokens : List String}
    (writes : tree.Writes level tokens) {assign : String → Bool}
    (known : ∀ operand ∈ tree.operands, resolve operand = some (assign operand))
    (waiting : List Waiting) (done : List String) (values : List Bool) (held : Held level waiting)
    (denotes : Denotes (.booleans resolve) done values) :
    ∃ next, (Table.booleans resolve).shuntAll ⟨waiting, done⟩ tokens = .ok next ∧
      Gathered resolve level waiting (tree.value assign) values next := by
  induction writes generalizing waiting done values with
  | operand word =>
    have role := role_operand resolve word
    have value := known word.text (List.mem_singleton_self _)
    refine ⟨⟨waiting, word.text :: done⟩, ?_, gathered_of_done held
      (.operand (Table.names_of_role role) value denotes)⟩
    rw [Table.shuntAll, Table.shunt, role]
    rfl
  | @negation tree tokens _ ih =>
    have held' : Held 3 (waitingAt 3 :: waiting) := held_operator (Nat.le_refl 3) "not" waiting
    obtain ⟨next, shunts, n, done', pending, released, denotes', makes⟩ :=
      ih known (waitingAt 3 :: waiting) done values held' denotes
    have pushed : (Table.booleans resolve).shunt ⟨waiting, done⟩ "not" =
        .ok ⟨waitingAt 3 :: waiting, done⟩ := by
      show Except.ok (Shunting.mk (waitingAt 3 :: (release (3 < ·) waiting done).waiting)
        (release (3 < ·) waiting done).done) = _
      rw [release_held held done]
    refine ⟨next, ?_, n + 1, done', pending, ?_, denotes', ?_⟩
    · rw [Table.shuntAll, pushed]
      exact shunts
    · rw [released, List.replicate_succ', List.append_assoc, List.singleton_append]
    · rw [operateAll_add, makes]
      rfl
  | @conjunction left right tokens tokens' _ _ ih ih' =>
    obtain ⟨known, known'⟩ := List.forall_mem_append.mp known
    obtain ⟨middle, shunts, gathered⟩ := ih known waiting done values held denotes
    rw [shuntAll_append shunts]
    refine gather_joined rfl (fun _ _ _ => rfl) ?_ Bool.and_assoc Bool.and_comm gathered (ih' known')
    intro values short
    rcases values with _ | ⟨_, _ | ⟨_, _⟩⟩
    · rfl
    · rfl
    · exact absurd short (by simp)
  | @disjunction left right tokens tokens' _ _ ih ih' =>
    obtain ⟨known, known'⟩ := List.forall_mem_append.mp known
    obtain ⟨middle, shunts, gathered⟩ := ih known waiting done values held denotes
    rw [shuntAll_append shunts]
    refine gather_joined rfl (fun _ _ _ => rfl) ?_ Bool.or_assoc Bool.or_comm gathered (ih' known')
    intro values short
    rcases values with _ | ⟨_, _ | ⟨_, _⟩⟩
    · rfl
    · rfl
    · exact absurd short (by simp)
  | @enclosed tree tokens _ ih =>
    obtain ⟨middle, shunts, gathered⟩ :=
      ih known (.parenthesis :: waiting) done values (held_parenthesis waiting) denotes
    obtain ⟨done', released, denotes'⟩ :=
      gathered.release (fun _ _ => rfl : ∀ p, 1 ≤ p → (fun _ => true) p = true) fun _ => rfl
    have closed : (Table.booleans resolve).shunt middle closeMark = .ok ⟨waiting, done'⟩ := by
      rw [Table.shunt, show (Table.booleans resolve).role closeMark = .closing from rfl]
      simp only [released]
    refine ⟨⟨waiting, done'⟩, ?_, gathered_of_done held denotes'⟩
    rw [Table.shuntAll, show (Table.booleans resolve).shunt ⟨waiting, done⟩ openMark =
      .ok ⟨.parenthesis :: waiting, done⟩ from rfl]
    show (Table.booleans resolve).shuntAll _ (tokens ++ [closeMark]) = _
    rw [shuntAll_append shunts, Table.shuntAll, closed]
    rfl
  | @tighter tree level tokens _ ih =>
    have held' : Held (level + 2) waiting := held.mono (Nat.le_succ _)
    obtain ⟨next, shunts, gathered⟩ := ih known waiting done values held' denotes
    have goes : ∀ p, level + 2 ≤ p → decide (level + 1 < p) = true :=
      fun p enough => decide_eq_true enough
    obtain ⟨done', released, denotes'⟩ := gathered.release goes (release_held held)
    exact ⟨next, shunts, 0, done', _, released, denotes', rfl⟩

end Shunting

/--
However a boolean expression is written down, with the parentheses that precedence asks for and any
others, both evaluations of the text give the value of the expression.
-/
theorem value_of_infix {tree : Tree} {tokens : List String} {text : String}
    (writes : tree.Writes 1 tokens) (spells : Spells tokens text.toList)
    {resolve : String → Option Bool} {assign : String → Bool}
    (known : ∀ operand ∈ tree.operands, resolve operand = some (assign operand)) :
    (Table.booleans resolve).value? text = some (tree.value assign) ∧
      (Table.booleans resolve).value text = .ok (tree.value assign) := by
  obtain ⟨state, shunts, gathered⟩ := gather writes known [] [] [] nofun .nil
  obtain ⟨done, released, denotes⟩ :=
    gathered.release (fun _ _ => rfl : ∀ p, 1 ≤ p → (fun _ => true) p = true) fun _ => rfl
  have compiles : (Table.booleans resolve).polish tokens = .ok done := by
    rw [Table.polish, shunts]
    show state.finish = _
    rw [Shunting.finish, released]
  refine value_of_denotes (tokenize_of_spells spells writes.tokens) ?_ compiles denotes
  intro token member
  rcases writes.tokens token member with mark | plain
  · exact (pad_mark mark).2
  · exact plain.1

namespace Spelled

def operandA : OperandWord := ⟨"A", isPlain_of_all (by decide) (by decide), by decide⟩

def operandB : OperandWord := ⟨"B", isPlain_of_all (by decide) (by decide), by decide⟩

def operandC : OperandWord := ⟨"C", isPlain_of_all (by decide) (by decide), by decide⟩

/-- Not both, or a third. -/
def tree : Tree :=
  .disjunction (.negation (.conjunction (.operand operandA) (.operand operandB))) (.operand operandC)

def tokens : List String := ["not", "(", "A", "and", "B", ")", "or", "C"]

theorem writes : tree.Writes 1 tokens :=
  .disjunction (.tighter (.tighter (.negation (.tighter (.enclosed (.tighter
    (.conjunction (.tighter (.tighter (.operand operandA)))
      (.tighter (.tighter (.operand operandB))))))))))
    (.tighter (.tighter (.tighter (.operand operandC))))

theorem spells : Spells tokens "not(A  and B )or C".toList := by
  have blank (gap : List Char) (all : gap.all isBlank = true) : ∀ c ∈ gap, isBlank c = true :=
    List.all_eq_true.mp all
  have ends (text : List Char) : Ends (' ' :: text) := by
    rintro _ ⟨⟩
    rfl
  have last : Spells ["C"] " C".toList := .cons (blank [' '] rfl) (.nil nofun) (.inr (.inl nofun))
  have or_last : Spells ["or", "C"] "or C".toList :=
    .cons (blank [] rfl) last (.inr (.inr (ends _)))
  have closed : Spells [")", "or", "C"] " )or C".toList :=
    .cons (blank [' '] rfl) or_last (.inl (.inr rfl))
  have second : Spells ["B", ")", "or", "C"] " B )or C".toList :=
    .cons (blank [' '] rfl) closed (.inr (.inl (by rintro _ ⟨⟩; exact .inr rfl)))
  have joined : Spells ["and", "B", ")", "or", "C"] "  and B )or C".toList :=
    .cons (blank [' ', ' '] rfl) second (.inr (.inr (ends _)))
  have first : Spells ["A", "and", "B", ")", "or", "C"] "A  and B )or C".toList :=
    .cons (blank [] rfl) joined (.inr (.inr (ends _)))
  have opened : Spells ["(", "A", "and", "B", ")", "or", "C"] "(A  and B )or C".toList :=
    .cons (blank [] rfl) first (.inl (.inl rfl))
  exact .cons (blank [] rfl) opened (.inr (.inl (by rintro _ ⟨⟩; exact .inl rfl)))

end Spelled

/-- An expression without the blanks that are not needed. -/
theorem value_of_infix_spelled :
    (Table.booleans fun word => some (word != "C")).value? "not(A  and B )or C" = some false ∧
      (Table.booleans fun word => some (word != "C")).value "not(A  and B )or C" = .ok false :=
  value_of_infix Spelled.writes Spelled.spells (show ∀ operand ∈ Spelled.tree.operands,
    some (operand != "C") = some ((· != "C") operand) from fun _ _ => rfl)

end Switchboard.Expr
