import Switchboard.Number.Binary64

/-!
# Shortest decimal digits

The fewest digits that round back to a number, found by looking at the two
neighbours of the number on the decimal grids of 1, 2, … 17 digits. The first
grid with a neighbour that rounds back wins; of two such neighbours the nearer
one, and on a tie the even one.
-/
namespace Switchboard

/-- A decimal `digits · 10 ^ exponent`. -/
structure DecimalForm where
  digits : Nat
  exponent : Int
  deriving Repr, DecidableEq

namespace DecimalForm

/-- The number of digits before the decimal point, minus the places after it. -/
def asRatio (d : DecimalForm) : Nat × Nat :=
  if 0 ≤ d.exponent then (d.digits * Nat.pow 10 d.exponent.toNat, 1)
  else (d.digits, Nat.pow 10 (-d.exponent).toNat)

/-- The number of units that a decimal is rounded to. -/
def units (d : DecimalForm) : Nat :=
  roundToDigits (d.asRatio.1 * unitsPerOne) d.asRatio.2

end DecimalForm

/-- The number of decimal digits of a whole number. -/
def decimalLength (n : Nat) : Nat := (Nat.toDigits 10 n).length

/-- The least `k` from `k₀` on with `10 ^ k` ones in `units · 10 ^ k`, within `fuel` trials. -/
def leadingZeros (units : Nat) : Nat → Nat → Nat
  | 0, k => k
  | fuel + 1, k => if unitsPerOne ≤ units * Nat.pow 10 k then k else leadingZeros units fuel (k + 1)

/-- The power of ten of the leading decimal digit. -/
def leadingExponent (units : Nat) : Int :=
  if unitsPerOne ≤ units then decimalLength (units / unitsPerOne) - 1
  else -(leadingZeros units 330 1 : Int)

/--
The neighbours below and above on the grid of multiples of `10 ^ exponent`, and how the distances
to them compare.
-/
def gridNeighbours (units : Nat) (exponent : Int) : DecimalForm × DecimalForm × Ordering :=
  let (num, den) :=
    if 0 ≤ exponent then (units, unitsPerOne * Nat.pow 10 exponent.toNat)
    else (units * Nat.pow 10 (-exponent).toNat, unitsPerOne)
  let below := num / den
  (⟨below, exponent⟩, ⟨below + 1, exponent⟩, compare (2 * (num % den)) den)

/-- The better of the neighbours on one grid, if one rounds back to the number. -/
def onGrid? (units : Nat) (exponent : Int) : Option DecimalForm :=
  let (below, above, nearer) := gridNeighbours units exponent
  match below.units == units, above.units == units with
  | true, true =>
    match nearer with
    | .lt => some below
    | .gt => some above
    | .eq => some (if below.digits % 2 = 0 then below else above)
  | true, false => some below
  | false, true => some above
  | false, false => none

/-- The first grid that holds a decimal that rounds back, from `n` digits on. -/
def firstGrid (units : Nat) (leading : Int) : Nat → Nat → Option DecimalForm
  | 0, _ => none
  | fuel + 1, n =>
    match onGrid? units (leading + 1 - n) with
    | some d => some d
    | none => firstGrid units leading fuel (n + 1)

/-- The exact decimal of a number of units. -/
def exactDecimal (units : Nat) : DecimalForm := ⟨units * Nat.pow 5 1074, -1074⟩

/-- The shortest decimal that rounds to a number of units. -/
def shortestDecimal (units : Nat) : DecimalForm :=
  (firstGrid units (leadingExponent units) 17 1).getD (exactDecimal units)

end Switchboard
