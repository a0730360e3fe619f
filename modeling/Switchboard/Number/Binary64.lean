/-!
# Binary floating-point numbers

A number with at most 53 binary digits, kept as a sign and a count of units of
2⁻¹⁰⁷⁴, the least positive amount of the 64-bit format. On this scale every
number of the format is a whole number, so comparison is comparison of
integers and rounding is division with a remainder. The format's upper limit
is not part of the type: `Overflows` tells which numbers lie beyond it, and
readers refuse those.
-/
namespace Switchboard

/-- One expressed in the unit of the format. -/
def unitsPerOne : Nat := Nat.pow 2 1074

/-- The quotient rounded to the nearest whole number, a half to the even one. -/
def roundDiv (num den : Nat) : Nat :=
  let quotient := num / den
  let rest := num % den
  if 2 * rest < den ∨ (2 * rest = den ∧ quotient % 2 = 0) then quotient else quotient + 1

/-- The number of low binary digits that a whole number has beyond 53. -/
def spareDigits (n : Nat) : Nat := n.log2 - 52

/-- `num / den` rounded to 53 binary digits. -/
def roundToDigits (num den : Nat) : Nat :=
  let grid := Nat.pow 2 (spareDigits (num / den))
  roundDiv num (den * grid) * grid

theorem roundDiv_le (num den : Nat) : roundDiv num den ≤ num / den + 1 := by
  unfold roundDiv
  dsimp only
  split <;> omega

theorem lt_two_pow_spareDigits (n : Nat) : n / Nat.pow 2 (spareDigits n) < Nat.pow 2 53 := by
  rw [Nat.pow_eq, Nat.pow_eq, Nat.div_lt_iff_lt_mul (Nat.two_pow_pos _), ← Nat.pow_add]
  refine Nat.lt_of_lt_of_le Nat.lt_log2_self (Nat.pow_le_pow_right (by decide) ?_)
  unfold spareDigits
  omega

/-- A number of units that the format can hold, its upper limit apart. -/
def FitsDigits (units : Nat) : Prop :=
  ∃ m k, m ≤ Nat.pow 2 53 ∧ units = m * Nat.pow 2 k

theorem fitsDigits_roundToDigits (num den : Nat) : FitsDigits (roundToDigits num den) := by
  refine ⟨_, spareDigits (num / den), ?_, rfl⟩
  have h := roundDiv_le num (den * Nat.pow 2 (spareDigits (num / den)))
  have h' := lt_two_pow_spareDigits (num / den)
  rw [← Nat.div_div_eq_div_mul] at h
  omega

structure Binary64 where
  negative : Bool
  units : Nat
  fits : FitsDigits units
  deriving DecidableEq

namespace Binary64

/-- `num / den` rounded, `num` and `den` being counted in ones. -/
def ofRatio (negative : Bool) (num den : Nat) : Binary64 :=
  ⟨negative, roundToDigits (num * unitsPerOne) den, fitsDigits_roundToDigits _ _⟩

def ofNat (n : Nat) : Binary64 := ofRatio false n 1

def ofInt (n : Int) : Binary64 := ofRatio (n < 0) n.natAbs 1

/-- The position of a number on the number line, in units. The two zeros have one position. -/
def position (x : Binary64) : Int := if x.negative then -(x.units : Int) else x.units

/-- Beyond the largest finite number of the format. -/
def Overflows (x : Binary64) : Prop := Nat.pow 2 1024 * unitsPerOne ≤ x.units

instance (x : Binary64) : Decidable x.Overflows := inferInstanceAs (Decidable (_ ≤ _))

def isZero (x : Binary64) : Bool := x.units == 0

/-- The same number with another sign. -/
def withSign (x : Binary64) (negative : Bool) : Binary64 := { x with negative := negative }

/-- Numerical comparison. -/
def compare (x y : Binary64) : Ordering := Ord.compare x.position y.position

/-- Numerical equality, under which the two zeros are equal. -/
def same (x y : Binary64) : Bool := x.position == y.position

/-- The product of the magnitudes, rounded; the sign is that of the first. -/
def times (x y : Binary64) : Binary64 :=
  ⟨x.negative, roundToDigits (x.units * y.units) unitsPerOne, fitsDigits_roundToDigits _ _⟩

/-- The quotient of the magnitudes, rounded; the sign is that of the first. -/
def dividedBy (x y : Binary64) : Binary64 :=
  ⟨x.negative, roundToDigits (x.units * unitsPerOne) y.units, fitsDigits_roundToDigits _ _⟩

/-- `10 ^ n` rounded. -/
def tenTo (n : Nat) : Binary64 := ofNat (Nat.pow 10 n)

end Binary64

end Switchboard
