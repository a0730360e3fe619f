import Switchboard.Number.Shortest
import Switchboard.Json.Value

/-!
# Writing JSON text

Values are written without blanks. Of a string only quotes, backslashes and
control characters are escaped. Numbers with a fraction or exponent are
written with the shortest digits that read back, plainly as long as the
leading digit stands between the fifth place after the point and the sixteenth
before it.
-/
namespace Switchboard.Json

def hexDigit (n : Nat) : Char := (Nat.toDigits 16 n).getLast?.getD '0'

/-- A character inside a string. -/
def escape (c : Char) : List Char :=
  if c = '"' then ['\\', '"']
  else if c = '\\' then ['\\', '\\']
  else if c = '\n' then ['\\', 'n']
  else if c = '\r' then ['\\', 'r']
  else if c = '\t' then ['\\', 't']
  else if c.toNat = 8 then ['\\', 'b']
  else if c.toNat = 12 then ['\\', 'f']
  else if c.toNat < 0x20 then
    ['\\', 'u', '0', '0', hexDigit (c.toNat / 16), hexDigit (c.toNat % 16)]
  else [c]

def quote (text : String) : List Char :=
  '"' :: (text.toList.flatMap escape ++ ['"'])

/-- The digits of a decimal without zeros at the end, and the power of ten of the first. -/
def significant (d : DecimalForm) : List Char × Int :=
  let digits := Nat.toDigits 10 d.digits
  ((digits.reverse.dropWhile (· == '0')).reverse, d.exponent + digits.length - 1)

/-- Exponents of the leading digit that are written without an exponent part. -/
def isPlain (exponent : Int) : Bool := -5 ≤ exponent && exponent < 16

/-- Digits and the power of ten of the first, laid out as text. -/
def layout (digits : List Char) (exponent : Int) : List Char :=
  if isPlain exponent then
    if exponent < 0 then
      ['0', '.'] ++ List.replicate (-exponent - 1).toNat '0' ++ digits
    else
      let places := exponent.toNat + 1
      if digits.length ≤ places then
        digits ++ List.replicate (places - digits.length) '0' ++ ['.', '0']
      else digits.take places ++ ['.'] ++ digits.drop places
  else
    let mantissa := match digits with
      | first :: second :: rest => first :: '.' :: second :: rest
      | _ => digits
    mantissa ++ ['e', if exponent < 0 then '-' else '+'] ++ Nat.toDigits 10 exponent.natAbs

/-- The text of a number with a fraction or exponent. -/
def floatText (x : Binary64) : List Char :=
  let body :=
    if x.isZero then ['0', '.', '0']
    else
      let (digits, exponent) := significant (shortestDecimal x.units)
      layout digits exponent
  if x.negative then '-' :: body else body

def intText (n : Int) : List Char :=
  if n < 0 then '-' :: Nat.toDigits 10 n.natAbs else Nat.toDigits 10 n.natAbs

mutual

def write : Json → List Char
  | .null => ['n', 'u', 'l', 'l']
  | .bool true => ['t', 'r', 'u', 'e']
  | .bool false => ['f', 'a', 'l', 's', 'e']
  | .int n => intText n
  | .float x => floatText x
  | .string s => quote s
  | .array items => '[' :: (writeItems items ++ [']'])
  | .object members => '\x7b' :: (writeMembers members ++ ['\x7d'])

def writeItems : List Json → List Char
  | [] => []
  | [item] => write item
  | item :: next :: rest => write item ++ ',' :: writeItems (next :: rest)

def writeMembers : List (String × Json) → List Char
  | [] => []
  | [(name, value)] => quote name ++ ':' :: write value
  | (name, value) :: next :: rest =>
    quote name ++ ':' :: (write value ++ ',' :: writeMembers (next :: rest))

end

/-- The text of an object whose members are written in a given order. -/
def writtenMembers (members : List (String × Json)) : String :=
  String.ofList ('\x7b' :: (writeMembers members ++ ['\x7d']))

/-- The text of a value. -/
def text (value : Json) : String := String.ofList value.write

end Switchboard.Json
