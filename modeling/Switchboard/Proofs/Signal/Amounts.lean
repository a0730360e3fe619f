import Switchboard.Proofs.Json.Plain
import Switchboard.Proofs.Term.Comparison

/-!
# One amount, two kinds of numbers

A whole number and a number with a fraction may be the same amount. As bits and
as numbers they are then the same. Literals tell them apart: what a literal is
read as is of one kind only, and no number of the other kind equals it; nor is
the text of a number ever read as one of the other kind. So a literal that
stands for the amount is matched by one of the two and never by both.
-/
namespace Switchboard

namespace Binary64

theorem same_ofNat_iff {x : Binary64} {n : Nat} (small : n ≤ 2 ^ 53) :
    x.same (.ofNat n) = true ↔ x.position = n * unitsPerOne := by
  have place : (ofNat n).position = n * unitsPerOne :=
    position_ofInt_of_le (n := n) (by simpa using small)
  rw [same_eq_true_iff, place]

/-- Numbers at one place are the same, or both are zero. -/
theorem eq_or_zero {x y : Binary64} (same : x.position = y.position) :
    x = y ∨ x.units = 0 ∧ y.units = 0 := by
  obtain ⟨negative, units, fits⟩ := x
  obtain ⟨negative', units', fits'⟩ := y
  unfold position at same
  dsimp only at same ⊢
  by_cases zero : units = 0
  · right
    constructor
    · exact zero
    · cases negative <;> cases negative' <;> simp [zero] at same <;> omega
  · left
    obtain ⟨rfl, rfl⟩ : negative = negative' ∧ units = units' := by
      cases negative <;> cases negative' <;> simp at same ⊢ <;> omega
    rfl

end Binary64

namespace Json

/-- The amount of a number, in units; whole numbers have one if the format holds them exactly. -/
inductive Amount : Json → Int → Prop where
  | int {n : Int} (range : InRange n) (fits : FitsDigits (n.natAbs * unitsPerOne)) :
      Amount (.int n) (n * unitsPerOne)
  | float (x : Binary64) : Amount (.float x) x.position

/-- Both whole, or both with a fraction. -/
def SameKind : Json → Json → Prop
  | .int _, .int _ | .float _, .float _ => True
  | _, _ => False

/-! ### Bits and comparisons -/

/-- The bit of an amount. -/
theorem Amount.bit?_eq {value : Json} {units : Int} (amount : Amount value units) :
    value.bit? = if units = 0 then some false else if units = unitsPerOne then some true
      else none := by
  have unit := unit_positive
  cases amount with
  | int range fits =>
    rename_i n
    have zero : n * unitsPerOne = 0 ↔ n = 0 := by
      rw [Int.mul_eq_zero]
      omega
    have one : n * unitsPerOne = unitsPerOne ↔ n = 1 := by
      constructor
      · intro same
        have same : n * unitsPerOne = 1 * unitsPerOne := by rw [same, Int.one_mul]
        exact Int.eq_of_mul_eq_mul_right (by omega) same
      · rintro rfl
        exact Int.one_mul _
    rw [bit?]
    simp only [zero, one]
  | float x =>
    have zero : x.same (.ofNat 0) = true ↔ x.position = 0 := by
      rw [Binary64.same_ofNat_iff (by decide)]
      omega
    have one : x.same (.ofNat 1) = true ↔ x.position = unitsPerOne := by
      rw [Binary64.same_ofNat_iff (by decide)]
      omega
    rw [bit?]
    simp only [zero, one]

theorem Amount.number?_eq {value : Json} {units : Int} (amount : Amount value units) :
    ∃ x, value.number? = some x ∧ x.position = units := by
  cases amount with
  | int range fits => exact ⟨_, rfl, Binary64.position_ofInt_of_fits fits⟩
  | float x => exact ⟨x, rfl, rfl⟩

/-- A number is compared with a number by its amount. -/
theorem Amount.order?_eq {value : Json} {units : Int} (amount : Amount value units)
    {operand : String} {y : Binary64} (number : numberOfText? operand = some y) :
    Comparator.order? value operand = some (compare units y.position) := by
  obtain ⟨x, denotes, place⟩ := amount.number?_eq
  have compares : Comparator.order? value operand = some (x.compare y) := by
    cases amount <;> rw [Comparator.order?, denotes, number]
  rw [compares, Binary64.compare, place]

/-! ### Literals -/

theorem ofLiteral_eq_int_iff {literal : String} {n : Int} :
    ofLiteral literal = .int n ↔ ofText? literal = some (.int n) := by
  unfold ofLiteral
  constructor
  · intro stands
    split at stands
    · exact nomatch stands
    · exact nomatch stands
    · rename_i m reads
      rw [reads, stands]
    · exact nomatch stands
    · exact nomatch stands
  · intro reads
    rw [reads]

/-- Literals of a whole number are read as this number. -/
theorem matches_int_iff {n : Int} (range : InRange n) (literal : String) :
    (Json.int n).matchesLiteral literal = true ↔ ofText? literal = some (.int n) := by
  rw [matchesLiteral, Bool.or_eq_true, beq_iff_eq, ← ofLiteral_eq_int_iff]
  constructor
  · rintro (equal | text)
    · cases stands : ofLiteral literal with
      | int m =>
        rw [stands] at equal
        rw [eq_of_beq (equal : (n == m) = true)]
      | null | bool | float | string | array | object =>
        rw [stands] at equal
        exact nomatch equal
    · rw [ofLiteral_eq_int_iff, ← text]
      exact ofText?_int range
  · intro stands
    left
    rw [stands]
    exact beq_self_eq_true n

/-- Literals of a number with a fraction are not read as whole numbers. -/
theorem not_int_of_matches_float {x : Binary64} {literal : String}
    (found : (Json.float x).matchesLiteral literal = true) (n : Int) :
    ofText? literal ≠ some (.int n) := by
  rw [matchesLiteral, Bool.or_eq_true, beq_iff_eq] at found
  rcases found with equal | text
  · intro reads
    rw [ofLiteral_eq_int_iff.mpr reads] at equal
    exact nomatch equal
  · rw [← text]
    exact ofText?_float_ne_int x n

theorem same_float {x y : Binary64} (same : x.position = y.position) (value : Json) :
    (Json.float x).same value = (Json.float y).same value := by
  cases value with
  | float z =>
    show x.same z = y.same z
    rw [Binary64.same, same]
    rfl
  | null | bool | int | string | array | object => rfl

/-- Either zero is the one that its text is read as. -/
theorem same_of_zero {x : Binary64} (zero : x.units = 0) {literal : String}
    (text : (Json.float x).plainText = literal) :
    (Json.float x).same (ofLiteral literal) = true := by
  have place : x.position = (Binary64.mk false 0 ⟨0, 0, Nat.zero_le _, rfl⟩).position := by
    unfold Binary64.position
    rw [zero]
    cases x.negative <;> rfl
  have written : (Json.float x).plainText = "0.0" ∨ (Json.float x).plainText = "-0.0" := by
    have zeros : floatText x = if x.negative then ['-', '0', '.', '0'] else ['0', '.', '0'] := by
      rw [floatText, Binary64.isZero, zero]
      rfl
    rw [plainText, Json.text, write, zeros]
    · cases x.negative
      · exact .inl rfl
      · exact .inr rfl
    · intro text other
      cases other
  rw [same_float place, ← text]
  rcases written with plain | signed
  · rw [plain]
    decide +kernel
  · rw [signed]
    decide +kernel

/-- Numbers with a fraction match by their amount. -/
theorem matches_float_congr {x y : Binary64} (same : x.position = y.position) (literal : String) :
    (Json.float x).matchesLiteral literal = (Json.float y).matchesLiteral literal := by
  rcases Binary64.eq_or_zero same with rfl | ⟨zero, zero'⟩
  · rfl
  · have only_same {z : Binary64} (zero : z.units = 0) :
        (Json.float z).matchesLiteral literal = (Json.float z).same (ofLiteral literal) := by
      rw [matchesLiteral]
      cases text : (Json.float z).plainText == literal with
      | false => exact Bool.or_false _
      | true => rw [same_of_zero zero (eq_of_beq text), Bool.or_true]
    rw [only_same zero, only_same zero', same_float same]

theorem matches_congr {a b : Json} {units : Int} (one : Amount a units) (other : Amount b units)
    (kind : SameKind a b) (literal : String) :
    a.matchesLiteral literal = b.matchesLiteral literal := by
  generalize same : units = units' at other
  cases one with
  | int =>
    cases other with
    | int =>
      have unit := unit_positive
      rw [Int.eq_of_mul_eq_mul_right (by omega) same]
    | float => exact kind.elim
  | float =>
    cases other with
    | int => exact kind.elim
    | float => exact matches_float_congr same literal

/-- No literal is matched by numbers of both kinds. -/
theorem not_both_match {a b : Json} {units units' : Int} (one : Amount a units)
    (other : Amount b units') (kinds : ¬SameKind a b) (literal : String) :
    ¬(a.matchesLiteral literal = true ∧ b.matchesLiteral literal = true) := by
  rintro ⟨first, second⟩
  cases one with
  | int range =>
    cases other with
    | int => exact kinds trivial
    | float => exact not_int_of_matches_float second _ ((matches_int_iff range literal).mp first)
  | float =>
    cases other with
    | int range =>
      exact not_int_of_matches_float first _ ((matches_int_iff range literal).mp second)
    | float => exact kinds trivial

end Json

end Switchboard
