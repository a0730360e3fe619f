/-!
# Operator tables

A table says which tokens are operators, how tightly each binds and what it
computes, and how every other token is resolved to a value. The value type is
free: truth values, streams of truth values, or text that shows how an
expression was put together.
-/
namespace Switchboard.Expr

variable {α : Type u}

/-- What an operator computes from the values of its operands. -/
inductive Application (α : Type u) where
  | unary (apply : α → α)
  | binary (apply : α → α → α)

def Application.arity : Application α → Nat
  | .unary _ => 1
  | .binary _ => 2

/-- Precedence 0 is kept for tokens that are no operators. -/
structure Operator (α : Type u) where
  precedence : Nat
  application : Application α
  positive : 0 < precedence

def openMark : String := "("

def closeMark : String := ")"

/-- Operators by token, and the meaning of operands. Parentheses are never operators. -/
structure Table (α : Type u) where
  operators : List (String × Operator α)
  resolve : String → Option α
  free : ∀ entry ∈ operators, entry.1 ≠ openMark ∧ entry.1 ≠ closeMark

/-- Why an operator cannot be entered into a table. -/
inductive BadEntry where
  | zeroPrecedence
  | parenthesis
  deriving Repr, DecidableEq

def BadEntry.message : BadEntry → String
  | .zeroPrecedence => "operator precedence must be positive"
  | .parenthesis => "parentheses are reserved tokens"

namespace Table

/-- A table without operators. -/
def ofOperands (resolve : String → Option α) : Table α :=
  ⟨[], resolve, by simp⟩

/-- Enters an operator; an earlier entry for the token is replaced. -/
def insert (table : Table α) (token : String) (precedence : Nat)
    (application : Application α) : Except BadEntry (Table α) :=
  if positive : 0 < precedence then
    if parenthesis : token = openMark ∨ token = closeMark then .error .parenthesis
    else .ok
      { table with
        operators := (token, ⟨precedence, application, positive⟩) ::
          table.operators.filter (·.1 ≠ token)
        free := by
          intro entry h
          rcases List.mem_cons.mp h with rfl | h
          · exact not_or.mp parenthesis
          · exact table.free entry (List.mem_filter.mp h).1 }
  else .error .zeroPrecedence

/-- The table of logic: `not` binds tighter than `and`, and `and` tighter than `or`. -/
def logic (negation : α → α) (conjunction disjunction : α → α → α)
    (resolve : String → Option α) : Table α where
  operators :=
    [("not", ⟨3, .unary negation, by decide⟩),
     ("and", ⟨2, .binary conjunction, by decide⟩),
     ("or", ⟨1, .binary disjunction, by decide⟩)]
  resolve := resolve
  free := by simp [openMark, closeMark]

/-- The table of logic over truth values. -/
def booleans (resolve : String → Option Bool) : Table Bool :=
  logic (!·) (· && ·) (· || ·) resolve

def find? (table : Table α) (token : String) : Option (Operator α) :=
  table.operators.lookup token

/-- The precedence of a token, 0 for operands and parentheses. -/
def precedence (table : Table α) (token : String) : Nat :=
  match table.find? token with
  | some operator => operator.precedence
  | none => 0

end Table

/-- The part a token plays in an expression. -/
inductive Role (α : Type u) where
  | opening
  | closing
  | operator (operator : Operator α)
  | operand

def Table.role (table : Table α) (token : String) : Role α :=
  if token = openMark then .opening
  else if token = closeMark then .closing
  else match table.find? token with
    | some operator => .operator operator
    | none => .operand

end Switchboard.Expr
