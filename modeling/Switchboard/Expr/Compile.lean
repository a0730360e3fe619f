import Switchboard.Text.Pieces
import Switchboard.Expr.Error
import Switchboard.Expr.Operator

/-!
# From infix to Polish form

An infix text is cut into tokens and rearranged so that every operator stands
before its operands. Operators wait on a stack until one that binds no tighter
arrives, a parenthesis closes or the text ends; equal precedence does not
release the waiting operator, so equal operators group from the right. The
result is gathered back to front, which reverses the operands: `A and B`
becomes `and B A`.
-/
namespace Switchboard.Expr

open Switchboard.Text

variable {α : Type u}

/-- The text with a blank on both sides of every parenthesis. -/
def pad : List Char → List Char
  | [] => []
  | c :: rest =>
    if c = '(' ∨ c = ')' then ' ' :: c :: ' ' :: pad rest else c :: pad rest

/-- The words of an expression, each parenthesis being a word of its own. -/
def tokenize (text : String) : List String :=
  (words (pad text.toList)).map String.ofList

/-- The words of a text that is already in Polish form. -/
def tokensOf (text : String) : List String :=
  (words text.toList).map String.ofList

/--
What waits on the stack: an open parenthesis, or an operator whose right operand is not complete.
-/
inductive Waiting where
  | parenthesis
  | operator (token : String) (precedence : Nat)
  deriving Repr, DecidableEq

/-- The stack, and the Polish form of what has left it. -/
structure Shunting where
  waiting : List Waiting
  done : List String
  deriving Repr, DecidableEq

/-- Moves waiting operators to the result as long as `test` accepts their precedence. -/
def release (test : Nat → Bool) : List Waiting → List String → Shunting
  | .operator token precedence :: waiting, done =>
    if test precedence then release test waiting (token :: done)
    else ⟨.operator token precedence :: waiting, done⟩
  | waiting, done => ⟨waiting, done⟩

/-- Takes one token into account. -/
def Table.shunt (table : Table α) (state : Shunting) (token : String) : Except Error Shunting :=
  match table.role token with
  | .opening => .ok { state with waiting := .parenthesis :: state.waiting }
  | .closing =>
    match release (fun _ => true) state.waiting state.done with
    | ⟨.parenthesis :: waiting, done⟩ => .ok ⟨waiting, done⟩
    | _ => .error .unmatchedClose
  | .operator operator =>
    let released := release (operator.precedence < ·) state.waiting state.done
    .ok { released with waiting := .operator token operator.precedence :: released.waiting }
  | .operand => .ok { state with done := token :: state.done }

/-- Releases what still waits at the end of the text. -/
def Shunting.finish (state : Shunting) : Except Error (List String) :=
  match release (fun _ => true) state.waiting state.done with
  | ⟨[], done⟩ => .ok done
  | _ => .error .unmatchedOpen

def Table.shuntAll (table : Table α) : Shunting → List String → Except Error Shunting
  | state, [] => .ok state
  | state, token :: rest =>
    match table.shunt state token with
    | .ok next => table.shuntAll next rest
    | .error e => .error e

/-- The Polish form of a list of infix tokens. -/
def Table.polish (table : Table α) (tokens : List String) : Except Error (List String) :=
  match table.shuntAll ⟨[], []⟩ tokens with
  | .ok state => state.finish
  | .error e => .error e

/-- The Polish form of an infix text, its tokens joined by single blanks. -/
def Table.compile (table : Table α) (text : String) : Except Error String :=
  (table.polish (tokenize text)).map (joinStrings " ")

end Switchboard.Expr
