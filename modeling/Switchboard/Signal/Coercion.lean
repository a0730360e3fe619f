import Switchboard.Text.Blank
import Switchboard.Json.Document
import Switchboard.Json.Printer

/-!
# Reading signal values

Signals carry arbitrary JSON. Rules look at a value in four ways: as a bit, as
a number, as text, or for being there at all.
-/
namespace Switchboard

/-- The number that a text denotes in decimal, blanks around it apart. -/
def numberOfText? (text : String) : Option Binary64 :=
  (Numeral.ofText? (Text.trim text.toList)).bind Numeral.nearest?

namespace Json

/-- The bit that a value denotes: a truth value, 0 or 1, or the text of one of these. -/
def bit? : Json → Option Bool
  | .bool b => some b
  | .int n => if n = 0 then some false else if n = 1 then some true else none
  | .float x =>
    if x.same (.ofNat 0) then some false else if x.same (.ofNat 1) then some true else none
  | .string s => if s = "0" then some false else if s = "1" then some true else none
  | _ => none

/-- The number that a value denotes. -/
def number? : Json → Option Binary64
  | .int n => some (.ofInt n)
  | .float x => some x
  | .bool b => some (.ofNat (if b then 1 else 0))
  | .string s => numberOfText? s
  | _ => none

/-- A string as it is, any other value as its JSON text. -/
def plainText : Json → String
  | .string s => s
  | value => value.text

/-- Whether a value counts as something: not null, false, zero or the empty string. -/
def truthy : Json → Bool
  | .null => false
  | .bool b => b
  | .int n => n ≠ 0
  | .float x => !x.isZero
  | .string s => s ≠ ""
  | _ => true

mutual

/--
Equality of values. The two zeros with a fraction are equal; whole numbers never equal numbers
with a fraction.
-/
def same : Json → Json → Bool
  | .null, .null => true
  | .bool a, .bool b => a == b
  | .int m, .int n => m == n
  | .float x, .float y => x.same y
  | .string s, .string t => s == t
  | .array xs, .array ys => sameItems xs ys
  | .object xs, .object ys => sameMembers xs ys
  | _, _ => false

def sameItems : List Json → List Json → Bool
  | [], [] => true
  | x :: xs, y :: ys => same x y && sameItems xs ys
  | _, _ => false

def sameMembers : List (String × Json) → List (String × Json) → Bool
  | [], [] => true
  | (name, x) :: xs, (other, y) :: ys => name == other && same x y && sameMembers xs ys
  | _, _ => false

end

/--
The value that a literal stands for: a number, a truth value or null if it reads so, else the text
itself.
-/
def ofLiteral (literal : String) : Json :=
  match ofText? literal with
  | some .null => .null
  | some (.bool b) => .bool b
  | some (.int n) => .int n
  | some (.float x) => .float x
  | _ => .string literal

/-- A value matches a literal that stands for it or that is its text. -/
def matchesLiteral (value : Json) (literal : String) : Bool :=
  value.same (ofLiteral literal) || value.plainText == literal

end Json

end Switchboard
