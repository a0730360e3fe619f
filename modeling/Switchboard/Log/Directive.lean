import Switchboard.Log.Note
import Switchboard.Number.Numeral
import Switchboard.Pattern.Reader
import Switchboard.Text.Alphanumeric
import Switchboard.Text.Bytes
import Switchboard.Text.Pieces

/-!
# Directives of log filters

A directive names a level, a target, or both, and in brackets a span or a
field, as in `target[span{field=value}]=level`. The value of a field has to be
one: a truth value, a number or a pattern. Of several faults the first one
counts.
-/
namespace Switchboard

structure FieldTest where
  name : String
  /-- Whether the field is to have a certain value. -/
  valued : Bool
  deriving Repr, DecidableEq

structure Directive where
  /-- The beginning of the names that the directive is about; all names if there is none. -/
  target : Option String
  /-- Whether the directive is about a span. -/
  spanned : Bool
  field : Option FieldTest
  /-- Notes of this rank and below are written. -/
  rank : Nat
  deriving Repr, DecidableEq

/-- What is wrong with a directive. -/
inductive DirectiveFault where
  | malformed
  | unknownLevel
  /-- The value of the field is written like a pattern but is none. -/
  | faultyPattern
  /-- The pattern asks for the ends of words of any script. -/
  | wordyPattern
  /-- A part of the directive would have to be cut inside a character. -/
  | split (cut : Text.SplitChar)
  deriving Repr, DecidableEq

def DirectiveFault.message : DirectiveFault → String
  | .malformed => "invalid filter directive"
  | .unknownLevel =>
    "error parsing level filter: expected one of \"off\", \"error\", \"warn\", \"info\", " ++
      "\"debug\", \"trace\", or a number 0-5"
  | .faultyPattern => "invalid field filter: error building NFA"
  | .wordyPattern =>
    "invalid field filter: unsupported regex feature for DFAs: cannot build DFAs for regexes " ++
      "with Unicode word boundaries; switch to ASCII word boundaries, or heuristically enable " ++
      "Unicode word boundaries or use a different regex engine"
  | .split cut => cut.message

namespace Directive

/-! ### Levels -/

/-- The names of ranks, from the one that lets nothing through. -/
def rankNames : List String := ["off", "error", "warn", "info", "debug", "trace"]

/-- The greatest rank. -/
def topRank : Nat := 5

/-- A rank in digits. -/
def numberedRank? (text : List Char) : Option Nat :=
  let digits := match text with
    | '+' :: rest => rest
    | _ => text
  if digits.isEmpty || !digits.all Char.isDigit then none
  else some (ofDigits (digits.map digitOf))

/-- The rank that a text names; the empty text names that of errors. -/
def rank? (text : List Char) : Option Nat :=
  match numberedRank? text with
  | some n => if n ≤ topRank then some n else none
  | none =>
    if text.isEmpty then some Level.error.rank
    else rankNames.findIdx? (· == String.ofList (text.map Char.toLower))

/-! ### Fields -/

/-- The words for numbers that are none of the finite ones. -/
def unboundedWords : List String := ["inf", "infinity", "nan"]

/-- Whether a word denotes a number, be it a finite one or not. -/
def isNumber (word : List Char) : Bool :=
  let magnitude := match word with
    | '+' :: rest | '-' :: rest => rest
    | _ => word
  (Numeral.ofText? word).isSome ||
    unboundedWords.contains (String.ofList (magnitude.map Char.toLower))

/-- What is wrong with the value of a field. -/
def valueFault? (value : List Char) : Option DirectiveFault :=
  if value = "true".toList ∨ value = "false".toList ∨ isNumber value then none
  else match Pattern.ofText? value with
    | none => some .faultyPattern
    | some pattern => if pattern.usesWords then some .wordyPattern else none

/-- The test of a field; what follows a second equals sign does not count. -/
def fieldTest (written : List Char) : Except DirectiveFault FieldTest :=
  match Text.pieces (· == '=') written with
  | name :: value :: _ =>
    match valueFault? value with
    | some fault => .error fault
    | none => .ok ⟨String.ofList name, true⟩
  | _ => if written.isEmpty then .error .malformed else .ok ⟨String.ofList written, false⟩

/-! ### Parts

The places of the parts of a directive are found in the text without blanks at
its ends, but the parts are taken from the text itself, at the same distance in
bytes from its beginning. -/

/-- The part of a text between two places. -/
def part (text : List Char) (first last : Nat) : Except DirectiveFault (List Char) :=
  (Text.betweenBytes first last text).mapError .split

/-- The rank after an equals sign, given the place after it; without any every note is written. -/
def assignedRank (text : List Char) (place : Nat) : Except DirectiveFault Nat := do
  let written ← (Text.fromByte place text).mapError DirectiveFault.split
  if written.isEmpty then return topRank
  else match rank? written with
    | some rank => return rank
    | none => throw .unknownLevel

/-- The characters other than an opening bracket that a directive begins with. -/
def begins (c : Char) : Bool := Text.isAlphanumeric c || "-:_".toList.contains c

/-- Reads what follows a bracket that closes before a place. -/
def afterBracket (text : List Char) (place : Nat) (directive : Directive) :
    List Char → Except DirectiveFault Directive
  | [] => .ok directive
  | '=' :: _ => (assignedRank text (place + 1)).map fun rank => { directive with rank := rank }
  | _ => .error .malformed

/-- Reads a field, which begins at a place, and what follows it. -/
def ofField (text : List Char) (place : Nat) (directive : Directive) (written : List Char) :
    Except DirectiveFault Directive := do
  let field := written.takeWhile (· ≠ '\x7d')
  let last := place + Text.byteLength field
  match written.drop field.length with
  | '\x7d' :: after =>
    let test ← fieldTest (← part text place last)
    match after with
    | ']' :: after => afterBracket text (last + 2) { directive with field := some test } after
    | _ => throw .malformed
  | _ => throw .malformed

/-- Reads what stands in brackets, from the place after the opening one, and what follows it. -/
def ofBracket (text : List Char) (place : Nat) (target : Option String) (written : List Char) :
    Except DirectiveFault Directive := do
  let name := written.takeWhile fun c => c ≠ ']' ∧ c ≠ '\x7b'
  let last := place + Text.byteLength name
  match written.drop name.length with
  | ']' :: after =>
    let _ ← part text place last
    afterBracket text (last + 1) ⟨target, true, none, topRank⟩ after
  | '\x7b' :: after =>
    let _ ← part text place last
    ofField text (last + 1) ⟨target, !name.isEmpty, none, topRank⟩ after
  | _ => throw .malformed

/-- Reads a directive. -/
def ofText (text : List Char) : Except DirectiveFault Directive := do
  let trimmed := Text.trim text
  let head := trimmed.takeWhile fun c => c ≠ '=' ∧ c ≠ '['
  let place := Text.byteLength head
  match trimmed with
  | [] => throw .malformed
  | '[' :: inside => ofBracket text 1 none inside
  | first :: _ =>
    if !begins first then throw .malformed
    else match trimmed.drop head.length with
      | '[' :: inside =>
        let target ← part text 0 place
        ofBracket text (place + 1) (some (String.ofList target)) inside
      | '=' :: _ =>
        let target ← part text 0 place
        return ⟨some (String.ofList target), false, none, ← assignedRank text (place + 1)⟩
      | _ =>
        match rank? text with
        | some rank => return ⟨none, false, none, rank⟩
        | none => return ⟨some (String.ofList text), false, none, topRank⟩

end Directive

end Switchboard
