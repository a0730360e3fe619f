import Switchboard.Engine.Input
import Switchboard.Proofs.Expr.Reading
import Switchboard.Proofs.Term.Bits

/-!
# Formulas

What the input of a rule says, apart from any values: a tree of operators over
terms. The truth value of a text and its stream are both read off the formula
of the text, and so the two can be compared.
-/
namespace Switchboard

inductive Formula where
  | operand (term : Term)
  | negation (formula : Formula)
  | conjunction (left right : Formula)
  | disjunction (left right : Formula)

namespace Formula

open Switchboard.Expr

/-- The formula of a text. -/
def table : Table Formula :=
  .logic .negation .conjunction .disjunction fun token => (Term.ofText? token).map .operand

/-- The truth value, if every operand has one. -/
def value (bits : Term → Option Bool) : Formula → Option Bool
  | .operand term => bits term
  | .negation formula => (formula.value bits).map (!·)
  | .conjunction left right =>
    (left.value bits).bind fun a => (right.value bits).map (a && ·)
  | .disjunction left right =>
    (left.value bits).bind fun a => (right.value bits).map (a || ·)

def stream (bus : Bus) : Formula → BusStream Bool
  | .operand term => term.stream bus
  | .negation formula => Stream.map (!·) (formula.stream bus)
  | .conjunction left right =>
    Input.joined "and-ing" (· && ·) (left.stream bus) (right.stream bus)
  | .disjunction left right =>
    Input.joined "or-ing" (· || ·) (left.stream bus) (right.stream bus)

/-- The operands from left to right. -/
def operands : Formula → List Term
  | .operand term => [term]
  | .negation formula => formula.operands
  | .conjunction left right | .disjunction left right => left.operands ++ right.operands

/-- Formulas are read as streams. -/
theorem readAs_table (bus : Bus) :
    table.ReadAs (fun formula => some (formula.stream bus)) (Input.table bus) := by
  have logic : table.ReadAs (fun formula => some (formula.stream bus))
      (.logic (Stream.map (!·)) (Input.joined "and-ing" (· && ·))
        (Input.joined "or-ing" (· || ·)) _) :=
    .logic (fun _ => rfl) (fun _ _ => rfl) (fun _ _ => rfl)
  refine ⟨logic.role, fun token => ?_⟩
  cases h : Term.ofText? token <;> simp [Input.table, table, Table.logic, h, stream]

/-- Formulas are read as truth values. -/
theorem readAs_booleans (bits : Term → Option Bool) :
    table.ReadAs (value bits) (Table.booleans fun token => (Term.ofText? token).bind bits) := by
  have logic : table.ReadAs (value bits) (.logic (!·) (· && ·) (· || ·) _) :=
    .logic (fun _ => rfl) (fun _ _ => rfl) (fun _ _ => rfl)
  refine ⟨logic.role, fun token => ?_⟩
  cases h : Term.ofText? token <;> simp [Table.booleans, table, Table.logic, h, value]

/-- Formulas are read as truth values when every term counts as true. -/
theorem readAs_termTable : table.ReadAs (value fun _ => some true) Input.termTable := by
  have same := readAs_booleans fun _ => some true
  have resolve : (fun token => (Term.ofText? token).bind fun _ => some true) =
      fun token => (Term.ofText? token).map fun _ => true := by
    funext token
    cases Term.ofText? token <;> rfl
  rwa [resolve] at same

/-- The stream of a text is the stream of its formula. -/
theorem value?_table (bus : Bus) (text : String) :
    (Input.table bus).value? text = (table.value? text).map (stream bus) := by
  rw [(readAs_table bus).value? text]
  cases table.value? text <;> rfl

/-- The truth value of a text is the truth value of its formula. -/
theorem value?_booleans (bits : Term → Option Bool) (text : String) :
    (Table.booleans fun token => (Term.ofText? token).bind bits).value? text =
      (table.value? text).bind (value bits) :=
  (readAs_booleans bits).value? text

/-- A formula has a value when all its operands have. -/
theorem value_isSome (bits : Term → Option Bool) (formula : Formula) :
    (formula.value bits).isSome ↔ ∀ term ∈ formula.operands, (bits term).isSome := by
  induction formula with
  | operand term => simp [value, operands]
  | negation formula ih => simpa [value, operands] using ih
  | conjunction left right ih ih' =>
    rw [operands, List.forall_mem_append, ← ih, ← ih', value]
    cases left.value bits <;> simp
  | disjunction left right ih ih' =>
    rw [operands, List.forall_mem_append, ← ih, ← ih', value]
    cases left.value bits <;> simp

/-- Every formula is true or false when every term counts as true. -/
theorem value_of_true (formula : Formula) : ∃ b, formula.value (fun _ => some true) = some b :=
  Option.isSome_iff_exists.mp ((formula.value_isSome fun _ => some true).mpr fun _ _ => rfl)

section Operands

/-- The tokens of a text that are operands, in Polish order. -/
def operandsOf (text : String) : List String :=
  match table.compile text with
  | .error _ => []
  | .ok polish => (tokensOf polish).filter fun token => (table.find? token).isNone

theorem push_cases (token : String) (stack : List Formula) :
    (∃ operator, table.find? token = some operator ∧
      table.push token stack = some (operator.application.onStack stack)) ∨
    table.find? token = none ∧
      table.push token stack = (Term.ofText? token).map fun term => .operand term :: stack := by
  have resolved : (table.resolve token).map (· :: stack) =
      (Term.ofText? token).map fun term => .operand term :: stack :=
    Option.map_map ..
  unfold Table.push Table.role
  rw [resolved]
  by_cases opens : token = openMark
  · subst opens
    exact .inr ⟨rfl, rfl⟩
  · by_cases closes : token = closeMark
    · subst closes
      exact .inr ⟨rfl, rfl⟩
    · rw [if_neg opens, if_neg closes]
      cases found : table.find? token with
      | some operator => exact .inl ⟨operator, rfl, rfl⟩
      | none => exact .inr ⟨rfl, rfl⟩

/-- The operators of the table take operands together and lose none. -/
theorem operands_onStack {token : String} {operator : Operator Formula}
    (found : table.find? token = some operator) (stack : List Formula) :
    (operator.application.onStack stack).flatMap operands = stack.flatMap operands := by
  have known : operator.application = .unary .negation ∨
      operator.application = .binary .conjunction ∨
      operator.application = .binary .disjunction := by
    unfold Table.find? table Table.logic at found
    by_cases isNot : token = "not"
    · subst isNot
      obtain rfl := Option.some.inj found
      exact .inl rfl
    · by_cases isAnd : token = "and"
      · subst isAnd
        obtain rfl := Option.some.inj found
        exact .inr (.inl rfl)
      · by_cases isOr : token = "or"
        · subst isOr
          obtain rfl := Option.some.inj found
          exact .inr (.inr rfl)
        · simp [List.lookup_cons, List.lookup_nil, beq_eq_false_iff_ne.mpr isNot,
            beq_eq_false_iff_ne.mpr isAnd, beq_eq_false_iff_ne.mpr isOr] at found
  rcases known with known | known | known
  · rw [known]
    cases stack <;> simp [Application.onStack, operands]
  · rw [known]
    rcases stack with _ | ⟨a, _ | ⟨b, stack⟩⟩
    · rfl
    · rfl
    · simp [Application.onStack, operands]
  · rw [known]
    rcases stack with _ | ⟨a, _ | ⟨b, stack⟩⟩
    · rfl
    · rfl
    · simp [Application.onStack, operands]

theorem operands_stackOf {tokens : List String} {stack : List Formula}
    (h : table.stackOf tokens = some stack) :
    (tokens.filter fun token => (table.find? token).isNone).map Term.ofText? =
      (stack.flatMap operands).map some := by
  induction tokens generalizing stack with
  | nil =>
    obtain rfl : [] = stack := Option.some.inj h
    rfl
  | cons token rest ih =>
    obtain ⟨below, before, pushed⟩ := Option.bind_eq_some_iff.mp h
    rcases push_cases token below with ⟨operator, found, push⟩ | ⟨found, push⟩
    · obtain rfl := Option.some.inj (push.symm.trans pushed)
      rw [List.filter_cons_of_neg (by simp [found]), operands_onStack found, ih before]
    · rw [push] at pushed
      obtain ⟨term, resolved, rfl⟩ := Option.map_eq_some_iff.mp pushed
      rw [List.filter_cons_of_pos (by simp [found]), List.map_cons, ih before, resolved]
      rfl

/-- The operands of a text's formula are the operands of the text. -/
theorem operands_of_value? {text : String} {formula : Formula}
    (h : table.value? text = some formula) :
    (operandsOf text).map Term.ofText? = formula.operands.map some := by
  unfold Table.value? at h
  unfold operandsOf
  cases compiled : table.compile text with
  | error e => simp [compiled] at h
  | ok polish =>
    rw [compiled] at h
    simp only [Table.evaluate] at h
    split at h
    · rename_i only stack
      obtain rfl := Option.some.inj h
      simpa using operands_stackOf stack
    · exact nomatch h

end Operands

/--
The truth value where every occurrence of an operand has a bit of its own. The bits stand in the
order of the operands.
-/
def valueOn : Formula → List (Option Bool) → Option Bool
  | .operand _, bits => bits.headD none
  | .negation formula, bits => (formula.valueOn bits).map (!·)
  | .conjunction left right, bits =>
    (left.valueOn bits).bind fun a =>
      (right.valueOn (bits.drop left.operands.length)).map (a && ·)
  | .disjunction left right, bits =>
    (left.valueOn bits).bind fun a =>
      (right.valueOn (bits.drop left.operands.length)).map (a || ·)

/-- Bits behind those of the operands do not count. -/
theorem valueOn_append (formula : Formula) {bits : List (Option Bool)}
    (enough : bits.length = formula.operands.length) (more : List (Option Bool)) :
    formula.valueOn (bits ++ more) = formula.valueOn bits := by
  have joined (left right : Formula)
      (ih : ∀ {bits}, bits.length = left.operands.length → ∀ more,
        left.valueOn (bits ++ more) = left.valueOn bits)
      (ih' : ∀ {bits}, bits.length = right.operands.length → ∀ more,
        right.valueOn (bits ++ more) = right.valueOn bits)
      {bits : List (Option Bool)}
      (enough : bits.length = (left.operands ++ right.operands).length)
      (more : List (Option Bool)) :
      left.valueOn (bits ++ more) = left.valueOn bits ∧
        right.valueOn ((bits ++ more).drop left.operands.length) =
          right.valueOn (bits.drop left.operands.length) := by
    rw [List.length_append] at enough
    have few : (bits.take left.operands.length).length = left.operands.length := by
      rw [List.length_take]
      omega
    have others : (bits.drop left.operands.length).length = right.operands.length := by
      rw [List.length_drop]
      omega
    have front := ih few
    have back := ih' others more
    constructor
    · have whole := front (bits.drop left.operands.length)
      have longer := front (bits.drop left.operands.length ++ more)
      rw [List.take_append_drop] at whole
      rw [← List.append_assoc, List.take_append_drop] at longer
      rw [longer, whole]
    · rw [List.drop_append_of_le_length (by omega)]
      exact back
  induction formula generalizing bits more with
  | operand term =>
    obtain ⟨b, rfl⟩ := List.length_eq_one_iff.mp enough
    rfl
  | negation formula ih => rw [valueOn, valueOn, ih enough]
  | conjunction left right ih ih' =>
    obtain ⟨same, same'⟩ := joined left right ih ih' enough more
    rw [valueOn, valueOn, same, same']
  | disjunction left right ih ih' =>
    obtain ⟨same, same'⟩ := joined left right ih ih' enough more
    rw [valueOn, valueOn, same, same']

/-- Where all occurrences of a term have the same bit, this is the value for these bits. -/
theorem valueOn_map (bits : Term → Option Bool) (formula : Formula) :
    formula.valueOn (formula.operands.map bits) = formula.value bits := by
  have joined (left right : Formula) :
      left.valueOn ((left.operands ++ right.operands).map bits) =
          left.valueOn (left.operands.map bits) ∧
        ((left.operands ++ right.operands).map bits).drop left.operands.length =
          right.operands.map bits := by
    rw [List.map_append]
    constructor
    · exact left.valueOn_append (List.length_map _) _
    · exact List.drop_left' (List.length_map _)
  induction formula with
  | operand term => rfl
  | negation formula ih => rw [valueOn, value, operands, ih]
  | conjunction left right ih ih' =>
    rw [valueOn, value, operands, (joined left right).1, (joined left right).2, ih, ih']
  | disjunction left right ih ih' =>
    rw [valueOn, value, operands, (joined left right).1, (joined left right).2, ih, ih']

/-- The operands with their first leaves, the leaves being numbered from `leaf` on. -/
def places (bus : Bus) : Formula → Nat → List (Nat × Term)
  | .operand term, leaf => [(leaf, term)]
  | .negation formula, leaf => formula.places bus leaf
  | .conjunction left right, leaf | .disjunction left right, leaf =>
    left.places bus leaf ++ right.places bus (leaf + (left.stream bus).leaves.length)

theorem map_places (bus : Bus) (formula : Formula) (leaf : Nat) :
    (formula.places bus leaf).map Prod.snd = formula.operands := by
  induction formula generalizing leaf with
  | operand => rfl
  | negation formula ih => exact ih leaf
  | conjunction left right ih ih' => rw [places, List.map_append, ih, ih', operands]
  | disjunction left right ih ih' => rw [places, List.map_append, ih, ih', operands]

/-- The leaves of an operand stand among the leaves of the formula. -/
theorem leaves_places (bus : Bus) (formula : Formula) (leaf : Nat) :
    ∀ place ∈ formula.places bus leaf, ∃ before after,
      (formula.stream bus).leaves = before ++ (place.2.stream bus).leaves ++ after ∧
        place.1 = leaf + before.length := by
  have joined (left right : Formula)
      (ih : ∀ leaf, ∀ place ∈ left.places bus leaf, ∃ before after,
        (left.stream bus).leaves = before ++ (place.2.stream bus).leaves ++ after ∧
          place.1 = leaf + before.length)
      (ih' : ∀ leaf, ∀ place ∈ right.places bus leaf, ∃ before after,
        (right.stream bus).leaves = before ++ (place.2.stream bus).leaves ++ after ∧
          place.1 = leaf + before.length)
      (leaf : Nat) : ∀ place ∈ left.places bus leaf ++
        right.places bus (leaf + (left.stream bus).leaves.length), ∃ before after,
      (left.stream bus).leaves ++ (right.stream bus).leaves =
        before ++ (place.2.stream bus).leaves ++ after ∧ place.1 = leaf + before.length := by
    intro place member
    rcases List.mem_append.mp member with member | member
    · obtain ⟨before, after, split, here⟩ := ih leaf place member
      exact ⟨before, after ++ (right.stream bus).leaves, by simp [split], here⟩
    · obtain ⟨before, after, split, here⟩ := ih' _ place member
      exact ⟨(left.stream bus).leaves ++ before, after, by simp [split], by simp [here, Nat.add_assoc]⟩
  induction formula generalizing leaf with
  | operand term =>
    intro place member
    obtain rfl := List.mem_singleton.mp member
    exact ⟨[], [], by simp [stream], rfl⟩
  | negation formula ih => exact ih leaf
  | conjunction left right ih ih' => exact joined left right ih ih' leaf
  | disjunction left right ih ih' => exact joined left right ih ih' leaf

theorem leaves_joined (word : String) (f : Bool → Bool → Bool) (left right : BusStream Bool) :
    (Input.joined word f left right).leaves = left.leaves ++ right.leaves := rfl

theorem last_joined (word : String) (f : Bool → Bool → Bool) (left right : BusStream Bool)
    (leaf : Nat) (feeds : List (Nat × Option Json)) :
    (Input.joined word f left right).last
        (Stream.window leaf (Input.joined word f left right).leaves.length feeds) =
      (left.last (Stream.window leaf left.leaves.length feeds)).bind fun a =>
        (right.last
          (Stream.window (leaf + left.leaves.length) right.leaves.length feeds)).map (f a) := by
  rw [leaves_joined, List.length_append, Input.joined, Stream.last_map, Stream.last_tap,
    Stream.pair, Stream.last_combine, Option.map_bind, Stream.window_window _ _ _ _ _ (by omega),
    Nat.add_zero, Stream.window_window _ _ _ _ _ (by omega)]
  simp [Function.comp_def]

/-- The last bits of the operands' streams, the leaves being numbered from `leaf` on. -/
def lastBits (bus : Bus) (formula : Formula) (leaf : Nat) (feeds : List (Nat × Option Json)) :
    List (Option Bool) :=
  (formula.places bus leaf).map fun place =>
    (place.2.stream bus).last (Stream.window place.1 (place.2.stream bus).leaves.length feeds)

theorem length_lastBits (bus : Bus) (formula : Formula) (leaf : Nat)
    (feeds : List (Nat × Option Json)) :
    (formula.lastBits bus leaf feeds).length = formula.operands.length := by
  rw [lastBits, List.length_map, ← map_places bus formula leaf, List.length_map]

/-- The last value of a formula's stream is the truth value for its operands' last bits. -/
theorem last_valueOn (bus : Bus) (formula : Formula) (leaf : Nat)
    (feeds : List (Nat × Option Json)) :
    (formula.stream bus).last (Stream.window leaf (formula.stream bus).leaves.length feeds) =
      formula.valueOn (formula.lastBits bus leaf feeds) := by
  have joined (left right : Formula) (leaf : Nat) :
      left.valueOn (left.lastBits bus leaf feeds ++
          right.lastBits bus (leaf + (left.stream bus).leaves.length) feeds) =
        left.valueOn (left.lastBits bus leaf feeds) ∧
      (left.lastBits bus leaf feeds ++
          right.lastBits bus (leaf + (left.stream bus).leaves.length) feeds).drop
            left.operands.length =
        right.lastBits bus (leaf + (left.stream bus).leaves.length) feeds := by
    have length := left.length_lastBits bus leaf feeds
    exact ⟨left.valueOn_append length _, List.drop_left' length⟩
  induction formula generalizing leaf with
  | operand term => rfl
  | negation formula ih =>
    rw [stream, Stream.last_map, valueOn]
    exact congrArg _ (ih leaf)
  | conjunction left right ih ih' =>
    have both : (conjunction left right).lastBits bus leaf feeds = left.lastBits bus leaf feeds ++
        right.lastBits bus (leaf + (left.stream bus).leaves.length) feeds :=
      List.map_append
    rw [stream, last_joined, ih, ih', valueOn, both, (joined left right leaf).1,
      (joined left right leaf).2]
  | disjunction left right ih ih' =>
    have both : (disjunction left right).lastBits bus leaf feeds = left.lastBits bus leaf feeds ++
        right.lastBits bus (leaf + (left.stream bus).leaves.length) feeds :=
      List.map_append
    rw [stream, last_joined, ih, ih', valueOn, both, (joined left right leaf).1,
      (joined left right leaf).2]

end Formula

end Switchboard
