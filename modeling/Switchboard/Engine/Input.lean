import Switchboard.Expr.Remark
import Switchboard.Term.Stream

/-!
# Input expressions

The input of a rule is an expression over terms. It is compiled to Polish form
and evaluated over streams of truth values, so that its value is itself a
stream that follows its operands.
-/
namespace Switchboard.Input

/-- Both streams joined, with a note on every pair of values. -/
def joined (word : String) (f : Bool → Bool → Bool) (left right : BusStream Bool) :
    BusStream Bool :=
  Stream.map (fun bits => f bits.1 bits.2)
    (.tap
      (fun bits => .note ⟨.debug, .engine,
        word ++ " " ++ Term.bitText bits.1 ++ " and " ++ Term.bitText bits.2⟩)
      (Stream.pair left right))

/-- The table of logic over streams of terms. -/
def table (bus : Bus) : Expr.Table (BusStream Bool) :=
  .logic (Stream.map (!·)) (joined "and-ing" (· && ·)) (joined "or-ing" (· || ·))
    fun token => (Term.ofText? token).map (Term.stream bus)

/-- The table of logic in which every term counts as true. -/
def termTable : Expr.Table Bool := .booleans fun token => (Term.ofText? token).map fun _ => true

/-- The notes on an operand that is no term. -/
def undefinedNote (token : String) : Note :=
  ⟨.warn, .engine, (RuleError.undefinedTerm token).message⟩

def remarkNotes (warn : Bool) (remark : Expr.Remark) : List Note :=
  let note : Note := ⟨.debug, .evaluator, remark.text⟩
  match remark with
  | .unresolved token => if warn then [undefinedNote token, note] else [note]
  | _ => [note]

/--
The notes on compiling a text and evaluating it, with or without a warning of undefined terms.
-/
def notes (warn : Bool) (text : String) : List Note :=
  match termTable.compile text with
  | .error _ => []
  | .ok polish =>
    [⟨.debug, .compiler, "Compiled '" ++ text ++ "' => '" ++ polish ++ "'"⟩,
     ⟨.debug, .evaluator, "Evaluating prefix expression '" ++ polish ++ "'"⟩] ++
      (termTable.remarks polish).flatMap (remarkNotes warn)

/-- The paths that evaluating a text makes known, in the order in which it comes by them. -/
def paths (text : String) : List String :=
  match termTable.compile text with
  | .error _ => []
  | .ok polish =>
    (termTable.resolved (Expr.tokensOf polish)).filterMap fun token =>
      (Term.ofText? token).bind Term.path?

/-- The stream that a text stands for, or why there is none. -/
def compile (bus : Bus) (text : String) : Except RuleError (BusStream Bool) :=
  match (table bus).compile text with
  | .error e => .error (.malformedExpression text (.expression e))
  | .ok polish =>
    match (table bus).evaluate polish with
    | some stream => .ok stream
    | none => .error (.malformedExpression text .notSingle)

/-- The stream that a text stands for, if there is one. -/
def evaluate (bus : Bus) (text : String) : Option (BusStream Bool) := (table bus).value? text

/-- Why a text cannot be the input of a rule. -/
inductive CompileError where
  | expression (error : Expr.Error)
  | invalid (text polish : String)
  deriving Repr, DecidableEq

def CompileError.message : CompileError → String
  | .expression error => error.message
  | .invalid text polish => "Invalid expression '" ++ text ++ "' (prefix '" ++ polish ++ "')"

/-- The Polish form of a text that can be the input of a rule. -/
def check (text : String) : Except CompileError String :=
  match termTable.compile text with
  | .error e => .error (.expression e)
  | .ok polish =>
    match termTable.evaluate polish with
    | some _ => .ok polish
    | none => .error (.invalid text polish)

end Switchboard.Input
