import Switchboard.Expr.Error

/-!
# What can be wrong with rules
-/
namespace Switchboard

/-- Why an expression has no value. -/
inductive Malformation where
  | expression (error : Expr.Error)
  | notSingle
  deriving Repr, DecidableEq

def Malformation.message : Malformation → String
  | .expression error => error.message
  | .notSingle => "expression does not reduce to a single value"

/-- The causes for which a term, a rule or a whole configuration is refused. -/
inductive RuleError where
  | undefinedTerm (term : String)
  | malformedExpression (expression : String) (reason : Malformation)
  | missingProperty (name : String)
  | noRules
  | alreadyRunning
  | badOutputType (kind : String)
  deriving Repr, DecidableEq

def RuleError.message : RuleError → String
  | .undefinedTerm term => "Undefined term: '" ++ term ++ "'"
  | .malformedExpression expression reason =>
    "Malformed expression '" ++ expression ++ "': " ++ reason.message
  | .missingProperty name => "missing '" ++ name ++ "' property"
  | .noRules => "configuration 'rules' property is missing or empty"
  | .alreadyRunning => "Rule engine is already running"
  | .badOutputType kind => "bad output type (" ++ kind ++ ")"

end Switchboard
