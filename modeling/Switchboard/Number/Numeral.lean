import Switchboard.Number.Binary64

/-!
# Reading decimal numerals

A numeral is written with a whole part, a fraction and an exponent. It is read
in one of two ways. `Numeral.nearest?` takes the number nearest to what is
written. `Numeral.scaled?` is the reading of numbers inside JSON text: the
leading digits that fit 64 bits are rounded first and then scaled by a rounded
power of ten, so that long numerals may end up one unit beside the nearest
number.
-/
namespace Switchboard

/-- A numeral as written; digits are kept as digits. -/
structure Numeral where
  negative : Bool
  whole : List Nat
  fraction : List Nat
  exponent : Int
  deriving Repr, DecidableEq

/-- The whole number that a row of decimal digits denotes. -/
def ofDigits (digits : List Nat) : Nat :=
  digits.foldl (fun n digit => 10 * n + digit) 0

def digitOf (c : Char) : Nat := c.toNat - '0'.toNat

/-- The largest power of ten within the 64-bit format. -/
def maxTen : Nat := 308

/-- The largest unsigned 64-bit whole number. -/
def maxWord : Nat := 0xFFFFFFFFFFFFFFFF

/-- The magnitude of the least signed 64-bit whole number. -/
def signedLimit : Nat := 0x8000000000000000

namespace Numeral

/-- All digits, with the power of ten that the last one counts. -/
def digits (n : Numeral) : List Nat := n.whole ++ n.fraction

def scale (n : Numeral) : Int := n.exponent - n.fraction.length

/--
The number nearest to what is written, if it is not too large. Numerals whose
leading digit lies far outside the format are decided without computing their
power of ten.
-/
def nearest? (n : Numeral) : Option Binary64 :=
  let significant := n.digits.dropWhile (· == 0)
  let value := ofDigits significant
  let top : Int := significant.length + n.scale
  if value = 0 ∨ top < -400 then some (.ofRatio n.negative 0 1)
  else if 400 < top then none
  else
    let x : Binary64 :=
      if 0 ≤ n.scale then .ofRatio n.negative (value * Nat.pow 10 n.scale.toNat) 1
      else .ofRatio n.negative value (Nat.pow 10 (-n.scale).toNat)
    if x.Overflows then none else some x

/-- Takes digits as long as the number fits 64 bits; the number, and the digits left over. -/
def gather : Nat → List Nat → Nat × List Nat
  | n, [] => (n, [])
  | n, digit :: rest =>
    if 10 * n + digit ≤ maxWord then gather (10 * n + digit) rest else (n, digit :: rest)

/-- Division by a power of ten, in steps of the largest power within the format. -/
def scaleDown : Nat → Nat → Binary64 → Binary64
  | 0, rest, x => x.dividedBy (.tenTo rest)
  | steps + 1, rest, x =>
    if x.isZero then x else scaleDown steps rest (x.dividedBy (.tenTo maxTen))

/-- `significand · 10 ^ exponent`, each operation rounded. -/
def scaledBy (significand : Nat) (exponent : Int) : Option Binary64 :=
  let x := Binary64.ofNat significand
  if exponent < 0 then
    let n := exponent.natAbs
    some (scaleDown ((n - 1) / maxTen) (n - maxTen * ((n - 1) / maxTen)) x)
  else if x.isZero then some x
  else if exponent ≤ maxTen then
    let y := x.times (.tenTo exponent.toNat)
    if y.Overflows then none else some y
  else none

/-- The reading of a numeral inside JSON text, if it is not too large. -/
def scaled? (n : Numeral) : Option Binary64 :=
  let (significand, dropped) := gather 0 n.whole
  let (significand, left) := gather significand n.fraction
  let taken := n.fraction.length - left.length
  (scaledBy significand (n.exponent + dropped.length - taken)).map (·.withSign n.negative)

end Numeral

/-- Splits off the decimal digits at the head of a text. -/
def takeDigits (text : List Char) : List Nat × List Char :=
  ((text.takeWhile Char.isDigit).map digitOf, text.dropWhile Char.isDigit)

/-- An exponent after its letter: an optional sign and at least one digit. -/
def takeExponent (text : List Char) : Option (Int × List Char) :=
  let (negative, body) := match text with
    | '-' :: rest => (true, rest)
    | '+' :: rest => (false, rest)
    | _ => (false, text)
  match takeDigits body with
  | ([], _) => none
  | (digits, rest) =>
    let magnitude : Int := ofDigits digits
    some (if negative then -magnitude else magnitude, rest)

/--
A numeral in free form: an optional sign, digits with an optional point on
either side of which they may be missing but not on both, and an optional
exponent.
-/
def Numeral.ofText? (text : List Char) : Option Numeral :=
  let (negative, body) := match text with
    | '-' :: rest => (true, rest)
    | '+' :: rest => (false, rest)
    | _ => (false, text)
  let (whole, rest) := takeDigits body
  let (fraction, rest) := match rest with
    | '.' :: more => takeDigits more
    | _ => ([], rest)
  if whole.isEmpty && fraction.isEmpty then none
  else match rest with
    | [] => some ⟨negative, whole, fraction, 0⟩
    | c :: more =>
      if c = 'e' ∨ c = 'E' then
        match takeExponent more with
        | some (exponent, []) => some ⟨negative, whole, fraction, exponent⟩
        | _ => none
      else none

end Switchboard
