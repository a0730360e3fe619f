import Switchboard.Expr.Evaluate

/-!
# What the forgiving evaluation passes over

Remarks for the service log on operators that find too few values, operands
that do not resolve and values that are left over, in the order in which the
evaluation meets them.
-/
namespace Switchboard.Expr

variable {α : Type u}

inductive Remark where
  | noOperand (operator : String)
  | missingOperand (operator : String)
  | unresolved (operand : String)
  | leftOver (text : String) (count : Nat)
  deriving Repr, DecidableEq

def Remark.text : Remark → String
  | .noOperand operator => "Operator '" ++ operator ++ "' has no operand, skipped"
  | .missingOperand operator => "Operator '" ++ operator ++ "' is missing an operand, skipped"
  | .unresolved operand => "Operand '" ++ operand ++ "' did not resolve"
  | .leftOver text count =>
    "Prefix expression '" ++ text ++ "' left " ++ toString count ++ " values on the stack"

/-- What there is to say about an operator that finds a given stack. -/
def missing? (token : String) (operator : Operator α) (stack : List α) : Option Remark :=
  if operator.application.arity ≤ stack.length then none
  else match operator.application with
    | .unary _ => some (.noOperand token)
    | .binary _ => some (.missingOperand token)

/--
The stack of values after tokens taken from the right, if there is one, the remarks on them and
the operands among them that have been resolved.
-/
def Table.survey (table : Table α) : List String → Option (List α) × List Remark × List String
  | [] => (some [], [], [])
  | token :: rest =>
    match table.survey rest with
    | (none, remarks, operands) => (none, remarks, operands)
    | (some stack, remarks, operands) =>
      match table.role token, table.resolve token with
      | .operator operator, _ =>
        (some (operator.application.onStack stack),
          remarks ++ (missing? token operator stack).toList, operands)
      | _, some value => (some (value :: stack), remarks, operands ++ [token])
      | _, none => (none, remarks ++ [.unresolved token], operands)

/-- The remarks on a Polish text. -/
def Table.remarks (table : Table α) (text : String) : List Remark :=
  match table.survey (tokensOf text) with
  | (some [_], remarks, _) => remarks
  | (some stack, remarks, _) => remarks ++ [.leftOver text stack.length]
  | (none, remarks, _) => remarks

/-- The operands that have been resolved when the evaluation from the right ends. -/
def Table.resolved (table : Table α) (tokens : List String) : List String :=
  (table.survey tokens).2.2

end Switchboard.Expr
