/-!
# What can be wrong with an expression
-/
namespace Switchboard.Expr

/-- The causes for which an expression is refused. -/
inductive Error where
  | unmatchedClose
  | unmatchedOpen
  | empty
  | missingOperand (operator : String)
  | trailingToken (token : String)
  | unresolvedOperand (token : String)
  deriving Repr, DecidableEq

def Error.message : Error → String
  | .unmatchedClose => "Unmatched ')' in expression"
  | .unmatchedOpen => "Unmatched '(' in expression"
  | .empty => "Empty expression"
  | .missingOperand operator => "Operator '" ++ operator ++ "' is missing an operand"
  | .trailingToken token => "Unexpected trailing token '" ++ token ++ "'"
  | .unresolvedOperand token => "Cannot resolve operand '" ++ token ++ "'"

end Switchboard.Expr
