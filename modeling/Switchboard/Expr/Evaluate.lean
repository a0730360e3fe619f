import Switchboard.Expr.Compile

/-!
# Values of expressions

Two readings of a text in Polish form. The forgiving one runs over the tokens
from the right with a stack of values: an operator that finds too few values is
passed over, and the text has a value when exactly one remains. The strict one
descends from the left and says what is wrong. Where the strict one succeeds
the two agree.
-/
namespace Switchboard.Expr

variable {α : Type u}

/-- Applies an operator to the values on top of the stack, or leaves the stack alone. -/
def Application.onStack : Application α → List α → List α
  | .unary f, a :: stack => f a :: stack
  | .binary f, a :: b :: stack => f a b :: stack
  | _, stack => stack

/-- The effect of one token on the stack of values. -/
def Table.push (table : Table α) (token : String) (stack : List α) : Option (List α) :=
  match table.role token with
  | .operator operator => some (operator.application.onStack stack)
  | _ => (table.resolve token).map (· :: stack)

/-- The stack of values after the tokens have been taken from the right. -/
def Table.stackOf (table : Table α) : List String → Option (List α)
  | [] => some []
  | token :: rest => (table.stackOf rest).bind (table.push token)

/-- The forgiving value of a Polish text. -/
def Table.evaluate (table : Table α) (text : String) : Option α :=
  match table.stackOf (tokensOf text) with
  | some [value] => some value
  | _ => none

/--
The value that starts at the head of the tokens, and the tokens after it. A
fuel of at least the number of tokens is enough.
-/
def Table.descend (table : Table α) : Nat → String → List String → Except Error (α × List String)
  | 0, parent, _ => .error (.missingOperand parent)
  | _, parent, [] => .error (.missingOperand parent)
  | fuel + 1, _, token :: rest =>
    match table.role token with
    | .operator ⟨_, .unary f, _⟩ =>
      match table.descend fuel token rest with
      | .ok (a, rest) => .ok (f a, rest)
      | .error e => .error e
    | .operator ⟨_, .binary f, _⟩ =>
      match table.descend fuel token rest with
      | .error e => .error e
      | .ok (a, rest) =>
        match table.descend fuel token rest with
        | .ok (b, rest) => .ok (f a b, rest)
        | .error e => .error e
    | _ =>
      match table.resolve token with
      | some value => .ok (value, rest)
      | none => .error (.unresolvedOperand token)

/-- The strict value of Polish tokens. -/
def Table.evaluateTokens (table : Table α) (tokens : List String) : Except Error α :=
  if tokens.isEmpty then .error .empty
  else match table.descend tokens.length "" tokens with
    | .ok (value, []) => .ok value
    | .ok (_, extra :: _) => .error (.trailingToken extra)
    | .error e => .error e

/-- The strict value of a Polish text. -/
def Table.evaluateStrict (table : Table α) (text : String) : Except Error α :=
  table.evaluateTokens (tokensOf text)

/-- The forgiving value of an infix text. -/
def Table.value? (table : Table α) (text : String) : Option α :=
  match table.compile text with
  | .ok polish => table.evaluate polish
  | .error _ => none

/-- The strict value of an infix text. -/
def Table.value (table : Table α) (text : String) : Except Error α :=
  match table.compile text with
  | .ok polish => table.evaluateStrict polish
  | .error e => .error e

end Switchboard.Expr
