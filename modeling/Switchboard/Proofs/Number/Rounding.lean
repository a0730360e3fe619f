import Mathlib.Algebra.Order.Ring.Nat
import Switchboard.Number.Binary64

/-!
# Rounding keeps the order

Two facts carry everything that is said about rounded numbers. Rounding never
turns the order of two amounts around, though it may make them equal, and an
amount of at most 53 binary digits is its own rounding. Below `2 ^ 53` whole
numbers therefore stay apart; `2 ^ 53 + 1` is the first that meets another one.
-/
namespace Switchboard

/-! ### Division with rounding -/

/-- The quotient or the next number, the latter from half of the divisor on only. -/
theorem roundDiv_cases (num den : Nat) :
    roundDiv num den = num / den ∧ 2 * (num % den) ≤ den ∨
      roundDiv num den = num / den + 1 ∧ den ≤ 2 * (num % den) := by
  unfold roundDiv
  dsimp only
  split
  · left
    constructor
    · rfl
    · omega
  · right
    constructor
    · rfl
    · omega

theorem div_le_roundDiv (num den : Nat) : num / den ≤ roundDiv num den := by
  rcases roundDiv_cases num den with ⟨rounds, _⟩ | ⟨rounds, _⟩ <;> omega

theorem roundDiv_mono {num more : Nat} (le : num ≤ more) (den : Nat) :
    roundDiv num den ≤ roundDiv more den := by
  have quotients : num / den ≤ more / den := Nat.div_le_div_right le
  by_cases same : num / den = more / den
  · -- With one quotient for both, the rests decide.
    have whole := Nat.div_add_mod num den
    have whole' := Nat.div_add_mod more den
    rw [same] at whole
    have rests : num % den ≤ more % den := by omega
    unfold roundDiv
    dsimp only
    rw [same]
    split <;> split <;> omega
  · have first := roundDiv_le num den
    have second := div_le_roundDiv more den
    omega

theorem roundDiv_mul (quotient : Nat) {den : Nat} (positive : 0 < den) :
    roundDiv (quotient * den) den = quotient := by
  unfold roundDiv
  dsimp only
  rw [Nat.mul_mod_left, Nat.mul_div_cancel _ positive]
  exact if_pos (.inl positive)

/-! ### The grid -/

theorem spareDigits_mono {n m : Nat} (le : n ≤ m) : spareDigits n ≤ spareDigits m := by
  have logs : n.log2 ≤ m.log2 := by
    by_cases zero : n = 0
    · subst zero
      exact Nat.zero_le _
    · exact (Nat.le_log2 (by omega)).mpr (Nat.le_trans (Nat.log2_self_le zero) le)
  unfold spareDigits
  omega

/-- Where digits are spared, 53 of them are left. -/
theorem two_pow_le_of_spareDigits {n : Nat} (spares : 0 < spareDigits n) :
    2 ^ 52 * 2 ^ spareDigits n ≤ n := by
  have big : 52 < n.log2 := by
    unfold spareDigits at spares
    omega
  have whole : 52 + spareDigits n = n.log2 := by
    unfold spareDigits
    omega
  have nonzero : n ≠ 0 := by
    rintro rfl
    simp at big
  rw [← Nat.pow_add, whole]
  exact Nat.log2_self_le nonzero

theorem roundToDigits_eq (num den : Nat) :
    roundToDigits num den = roundDiv num (den * 2 ^ spareDigits (num / den)) *
      2 ^ spareDigits (num / den) := rfl

/-- A rounded number has at most 53 digits, or it is the least one with a digit more. -/
theorem roundToDigits_le (num den : Nat) :
    roundToDigits num den ≤ 2 ^ 53 * 2 ^ spareDigits (num / den) := by
  have rounds := roundDiv_le num (den * 2 ^ spareDigits (num / den))
  have fits : num / den / 2 ^ spareDigits (num / den) < 2 ^ 53 := lt_two_pow_spareDigits _
  rw [← Nat.div_div_eq_div_mul] at rounds
  rw [roundToDigits_eq]
  exact Nat.mul_le_mul_right _ (by omega)

/-- What is cut off counts for one unit of the grid at most. -/
theorem le_roundToDigits (num den : Nat) (spares : 0 < spareDigits (num / den)) :
    2 ^ 52 * 2 ^ spareDigits (num / den) ≤ roundToDigits num den := by
  have leads : 2 ^ 52 ≤ num / den / 2 ^ spareDigits (num / den) :=
    (Nat.le_div_iff_mul_le (Nat.two_pow_pos _)).mpr (two_pow_le_of_spareDigits spares)
  rw [Nat.div_div_eq_div_mul] at leads
  have rounds := div_le_roundDiv num (den * 2 ^ spareDigits (num / den))
  rw [roundToDigits_eq]
  exact Nat.mul_le_mul_right _ (by omega)

/-- Rounding keeps the order of amounts. -/
theorem roundToDigits_mono {num more : Nat} (le : num ≤ more) (den : Nat) :
    roundToDigits num den ≤ roundToDigits more den := by
  have grids : spareDigits (num / den) ≤ spareDigits (more / den) :=
    spareDigits_mono (Nat.div_le_div_right le)
  by_cases same : spareDigits (num / den) = spareDigits (more / den)
  · rw [roundToDigits_eq, roundToDigits_eq, same]
    apply Nat.mul_le_mul_right
    exact roundDiv_mono le _
  · -- The larger amount has a coarser grid, and its leading digit alone exceeds the smaller one.
    have finer : spareDigits (num / den) + 1 ≤ spareDigits (more / den) := by omega
    calc roundToDigits num den
        ≤ 2 ^ 53 * 2 ^ spareDigits (num / den) := roundToDigits_le num den
      _ = 2 ^ 52 * 2 ^ (spareDigits (num / den) + 1) := by
          rw [← Nat.pow_add, ← Nat.pow_add]
          congr 1
          omega
      _ ≤ 2 ^ 52 * 2 ^ spareDigits (more / den) :=
          Nat.mul_le_mul_left _ (Nat.pow_le_pow_right (by decide) finer)
      _ ≤ roundToDigits more den := le_roundToDigits more den (by omega)

/-- An amount of at most 53 digits lies on its own grid. -/
theorem FitsDigits.dvd {units : Nat} (fits : FitsDigits units) :
    2 ^ spareDigits units ∣ units := by
  obtain ⟨m, k, small, rfl⟩ := fits
  rw [Nat.pow_eq] at small ⊢
  by_cases spares : spareDigits (m * 2 ^ k) ≤ k
  · exact Dvd.dvd.mul_left (Nat.pow_dvd_pow 2 spares) m
  · -- Only the power of two itself has a digit to spare beyond `k`.
    have leads := two_pow_le_of_spareDigits (n := m * 2 ^ k) (by omega)
    have coarse : 2 ^ (k + 1) ≤ 2 ^ spareDigits (m * 2 ^ k) :=
      Nat.pow_le_pow_right (by decide) (by omega)
    have above : 2 ^ 53 * 2 ^ k ≤ m * 2 ^ k := by
      have step : 2 ^ 53 * 2 ^ k = 2 ^ 52 * 2 ^ (k + 1) := by
        rw [Nat.pow_succ 2 k]
        omega
      omega
    obtain rfl : m = 2 ^ 53 := by
      have := Nat.le_of_mul_le_mul_right above (Nat.two_pow_pos k)
      omega
    have exact_log : spareDigits (2 ^ 53 * 2 ^ k) = k + 1 := by
      rw [spareDigits, ← Nat.pow_add, Nat.log2_two_pow]
      omega
    rw [exact_log, ← Nat.pow_add]
    exact Nat.pow_dvd_pow 2 (by omega)

/-- An amount of at most 53 digits is its own rounding. -/
theorem roundToDigits_of_fits {units : Nat} (fits : FitsDigits units) {den : Nat}
    (positive : 0 < den) : roundToDigits (units * den) den = units := by
  obtain ⟨quotient, whole⟩ := fits.dvd
  have grid := Nat.two_pow_pos (spareDigits units)
  rw [roundToDigits_eq, Nat.mul_div_cancel _ positive]
  have shape : units * den = quotient * (den * 2 ^ spareDigits units) := by
    rw [Nat.mul_comm den, ← Nat.mul_assoc, Nat.mul_comm quotient, ← whole]
  rw [shape, roundDiv_mul _ (Nat.mul_pos positive grid), Nat.mul_comm]
  exact whole.symm

/-! ### Whole numbers -/

theorem unitsPerOne_pos : 0 < unitsPerOne := by
  apply Nat.pow_pos
  decide

theorem unit_positive : (0 : Int) < unitsPerOne := Int.natCast_pos.mpr unitsPerOne_pos

theorem fitsDigits_of_le {n : Nat} (small : n ≤ 2 ^ 53) : FitsDigits (n * unitsPerOne) := by
  refine ⟨n, 1074, small, ?_⟩
  unfold unitsPerOne
  rfl

theorem FitsDigits.mul_two_pow {units : Nat} (fits : FitsDigits units) (more : Nat) :
    FitsDigits (units * 2 ^ more) := by
  obtain ⟨m, k, small, rfl⟩ := fits
  refine ⟨m, k + more, small, ?_⟩
  rw [Nat.pow_eq, Nat.pow_eq, Nat.pow_add, Nat.mul_assoc]

namespace Binary64

theorem position_ofInt (n : Int) : (ofInt n).position =
    if n < 0 then -((ofInt n).units : Int) else (ofInt n).units := by
  by_cases negative : n < 0 <;> simp [position, ofInt, ofRatio, negative]

theorem units_ofInt_mono {n m : Int} (le : n.natAbs ≤ m.natAbs) :
    (ofInt n).units ≤ (ofInt m).units :=
  roundToDigits_mono (Nat.mul_le_mul_right _ le) 1

/-- Rounding keeps the order of whole numbers. -/
theorem position_ofInt_mono {n m : Int} (le : n ≤ m) :
    (ofInt n).position ≤ (ofInt m).position := by
  rw [position_ofInt, position_ofInt]
  split
  · split
    · have := units_ofInt_mono (n := m) (m := n) (by omega)
      omega
    · omega
  · have := units_ofInt_mono (n := n) (m := m) (by omega)
    rw [if_neg (by omega)]
    omega

/-- Whole numbers of 64 bits are far from the upper limit of the format. -/
theorem not_overflows_ofInt {n : Int} (small : n.natAbs ≤ 2 ^ 64) : ¬(ofInt n).Overflows := by
  have limit : (ofInt n).units ≤ 1 * unitsPerOne * 2 ^ 64 := by
    have fits := (fitsDigits_of_le (n := 1) (by decide)).mul_two_pow 64
    calc (ofInt n).units
        ≤ roundToDigits (1 * unitsPerOne * 2 ^ 64 * 1) 1 := by
          apply roundToDigits_mono
          rw [Nat.mul_one, Nat.one_mul, Nat.mul_comm unitsPerOne]
          exact Nat.mul_le_mul_right _ small
      _ = 1 * unitsPerOne * 2 ^ 64 := roundToDigits_of_fits fits Nat.one_pos
  have high : 64 < 1024 := by decide
  unfold Overflows
  revert high
  generalize 1024 = top
  intro high above
  have below : 1 * unitsPerOne * 2 ^ 64 < Nat.pow 2 top * unitsPerOne := by
    rw [Nat.pow_eq, Nat.one_mul, Nat.mul_comm]
    exact Nat.mul_lt_mul_of_pos_right (Nat.pow_lt_pow_right (by decide) high) unitsPerOne_pos
  omega

/-- A whole number that fits the format keeps its place on the number line. -/
theorem position_ofInt_of_fits {n : Int} (fits : FitsDigits (n.natAbs * unitsPerOne)) :
    (ofInt n).position = n * unitsPerOne := by
  have units : (ofInt n).units = n.natAbs * unitsPerOne := by
    have same := roundToDigits_of_fits fits Nat.one_pos
    rwa [Nat.mul_one] at same
  rw [position_ofInt, units, Int.natCast_mul]
  split
  · have size : (n.natAbs : Int) = -n := by omega
    rw [size, Int.neg_mul, Int.neg_neg]
  · have size : (n.natAbs : Int) = n := by omega
    rw [size]

theorem position_ofInt_of_le {n : Int} (small : n.natAbs ≤ 2 ^ 53) :
    (ofInt n).position = n * unitsPerOne :=
  position_ofInt_of_fits (fitsDigits_of_le small)

/-- Different numbers are apart after rounding if one of them is less than `2 ^ 53`. -/
theorem position_ofInt_lt {n m : Int} (lt : n < m)
    (small : n.natAbs < 2 ^ 53 ∨ m.natAbs < 2 ^ 53 ∨ n.natAbs ≤ 2 ^ 53 ∧ m.natAbs ≤ 2 ^ 53) :
    (ofInt n).position < (ofInt m).position := by
  have unit := unit_positive
  -- A number between them, next to the small one, is exact as well.
  have step (k : Int) : k * (unitsPerOne : Int) < (k + 1) * unitsPerOne := by
    rw [Int.add_mul]
    omega
  rcases small with small | small | ⟨small, small'⟩
  · calc (ofInt n).position
        = n * unitsPerOne := position_ofInt_of_le (by omega)
      _ < (n + 1) * unitsPerOne := step n
      _ = (ofInt (n + 1)).position := (position_ofInt_of_le (by omega)).symm
      _ ≤ (ofInt m).position := position_ofInt_mono (by omega)
  · calc (ofInt n).position
        ≤ (ofInt (m - 1)).position := position_ofInt_mono (by omega)
      _ = (m - 1) * unitsPerOne := position_ofInt_of_le (by omega)
      _ < (m - 1 + 1) * unitsPerOne := step (m - 1)
      _ = m * unitsPerOne := by rw [Int.sub_add_cancel]
      _ = (ofInt m).position := (position_ofInt_of_le (by omega)).symm
  · rw [position_ofInt_of_le small, position_ofInt_of_le small']
    exact Int.mul_lt_mul_of_pos_right lt unit

theorem same_eq_true_iff {x y : Binary64} : x.same y = true ↔ x.position = y.position := beq_iff_eq

theorem compare_eq_iff {x y : Binary64} : x.compare y = .eq ↔ x.position = y.position := by
  rw [Binary64.compare, Int.compare_eq_eq]

/-- Whole numbers that are apart after rounding are in the order that they have. -/
theorem compare_ofInt_of_apart {n m : Int} (apart : (ofInt n).position ≠ (ofInt m).position) :
    (ofInt n).compare (ofInt m) = Ord.compare n m := by
  rw [Binary64.compare]
  rcases Int.lt_trichotomy n m with less | same | more
  · have below := position_ofInt_mono (Int.le_of_lt less)
    rw [Int.compare_eq_lt.mpr less]
    exact Int.compare_eq_lt.mpr (by omega)
  · exact absurd (congrArg (fun k => (ofInt k).position) same) apart
  · have below := position_ofInt_mono (Int.le_of_lt more)
    rw [Int.compare_eq_gt.mpr more]
    exact Int.compare_eq_gt.mpr (by omega)

end Binary64

end Switchboard
