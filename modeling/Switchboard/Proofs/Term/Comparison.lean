import Switchboard.Proofs.Number.Decimal
import Switchboard.Term.Comparator

/-!
# What comparisons tell

A value that is not null stands to every operand in one of three orders, by
which all six comparisons are decided: neither values nor operands can be
numbers that have no order. Whole numbers are compared by the numbers of the
64-bit format that are nearest to them. That never turns their order around; but
different numbers may have the same nearest number, and then they count as
equal. Below `2 ^ 53` this does not happen.
-/
namespace Switchboard.Comparator

/-! ### One order -/

/-- Six answers that come from one order: just one of the first three, and the others by them. -/
structure OneOrder (answer : Comparator → Bool) : Prop where
  single : [answer .lt, answer .eq, answer .gt].count true = 1
  le : answer .le = (answer .lt || answer .eq)
  ge : answer .ge = (answer .gt || answer .eq)
  ne : answer .ne = !answer .eq

theorem oneOrder_holds (order : Ordering) : OneOrder (holds · order) := by
  cases order <;> constructor <;> rfl

/-- Every value but null stands in some order to an operand. -/
theorem exists_order {value : Json} (some_value : value ≠ .null) (operand : String) :
    ∃ order, order? value operand = some order := by
  cases value with
  | null => exact absurd rfl some_value
  | bool _ | int _ | float _ =>
    -- Two numbers always have an order; if one is missing, the texts have.
    unfold order?
    dsimp only
    split
    · exact ⟨_, rfl⟩
    · exact ⟨_, rfl⟩
  | string _ | array _ | object _ => exact ⟨_, rfl⟩

theorem test_of_order {value : Json} {operand : String} {order : Ordering}
    (stands : order? value operand = some order) (comparator : Comparator) :
    comparator.test value operand = comparator.holds order := by
  rw [test, stands]

/-- The six comparisons of a value that is not null. -/
theorem oneOrder_test {value : Json} (some_value : value ≠ .null) (operand : String) :
    OneOrder (test · value operand) := by
  obtain ⟨order, stands⟩ := exists_order some_value operand
  have tests : (test · value operand) = (holds · order) := funext (test_of_order stands)
  rw [tests]
  exact oneOrder_holds order

theorem test_null (comparator : Comparator) (operand : String) :
    comparator.test .null operand = false := rfl

/-! ### Whole numbers -/

/-- What a comparison says of whole numbers. -/
def Relates : Comparator → Int → Int → Prop
  | .eq, n, m => n = m
  | .ne, n, m => n ≠ m
  | .lt, n, m => n < m
  | .le, n, m => n ≤ m
  | .gt, n, m => m < n
  | .ge, n, m => m ≤ n

theorem holds_compare_iff (comparator : Comparator) (n m : Int) :
    comparator.holds (compare n m) = true ↔ comparator.Relates n m := by
  rcases Int.lt_trichotomy n m with less | rfl | more
  · rw [Int.compare_eq_lt.mpr less]
    cases comparator <;> simp [holds, Relates] <;> omega
  · rw [Int.compare_eq_eq.mpr rfl]
    cases comparator <;> simp [holds, Relates]
  · rw [Int.compare_eq_gt.mpr more]
    cases comparator <;> simp [holds, Relates] <;> omega

/-- Different whole numbers with the same nearest number of the 64-bit format. -/
def Merged (n m : Int) : Prop :=
  n ≠ m ∧ (Binary64.ofInt n).position = (Binary64.ofInt m).position

instance (n m : Int) : Decidable (Merged n m) := inferInstanceAs (Decidable (_ ∧ _))

theorem order?_int (n : Int) {m : Int} (range : Json.InRange m) :
    order? (.int n) (toString m) = some ((Binary64.ofInt n).compare (.ofInt m)) := by
  rw [order?, numberOfText?_toString range]
  rfl

theorem not_merged_of_small {n m : Int} (small : n.natAbs < 2 ^ 53 ∨ m.natAbs < 2 ^ 53 ∨
    n.natAbs ≤ 2 ^ 53 ∧ m.natAbs ≤ 2 ^ 53) : ¬Merged n m := by
  rintro ⟨differ, same⟩
  rcases Int.lt_or_gt_of_ne differ with less | more
  · have := Binary64.position_ofInt_lt less small
    omega
  · have := Binary64.position_ofInt_lt more (by omega)
    omega

/--
A whole number is compared with an operand that is written for a whole number just as the two
numbers are related, unless they are different and have the same nearest number of the 64-bit
format: then they count as equal. That takes two numbers beyond `2 ^ 53`, one of them at the least
strictly.
-/
theorem compares_unless_merged (comparator : Comparator) (n m : Int) (range : Json.InRange m) :
    (¬Merged n m → (comparator.test (.int n) (toString m) = true ↔ comparator.Relates n m)) ∧
      (Merged n m → (comparator.test (.int n) (toString m) = true ↔ comparator.Relates n n)) ∧
      (n.natAbs < 2 ^ 53 ∨ m.natAbs < 2 ^ 53 ∨ n.natAbs ≤ 2 ^ 53 ∧ m.natAbs ≤ 2 ^ 53 →
        ¬Merged n m) := by
  have stands := order?_int n range
  refine ⟨fun apart => ?_, fun merged => ?_, not_merged_of_small⟩
  · rw [← holds_compare_iff, test_of_order stands]
    by_cases same : n = m
    · subst same
      rw [Binary64.compare_eq_iff.mpr rfl, Int.compare_eq_eq.mpr rfl]
    · rw [Binary64.compare_ofInt_of_apart fun merges => apart ⟨same, merges⟩]
  · rw [← holds_compare_iff, test_of_order stands, Binary64.compare_eq_iff.mpr merged.2,
      Int.compare_eq_eq.mpr rfl]

/-- The largest whole number beside the largest one that fits the format, and beside its neighbour. -/
theorem compares_at_the_limit :
    Json.InRange 18446744073709549568 ∧
      ¬Merged 18446744073709551615 18446744073709549568 ∧
      (Comparator.gt.test (.int 18446744073709551615) (toString (18446744073709549568 : Int)) =
          true ↔ Comparator.gt.Relates 18446744073709551615 18446744073709549568) ∧
      Merged 18446744073709551615 18446744073709551614 ∧
      (Comparator.gt.test (.int 18446744073709551615) (toString (18446744073709551614 : Int)) =
          true ↔ Comparator.gt.Relates 18446744073709551615 18446744073709551615) := by
  have range : Json.InRange 18446744073709549568 := by decide
  have range' : Json.InRange 18446744073709551614 := by decide
  have apart : ¬Merged 18446744073709551615 18446744073709549568 := by decide +kernel
  have merged : Merged 18446744073709551615 18446744073709551614 := by decide +kernel
  exact ⟨range, apart, (compares_unless_merged .gt _ _ range).1 apart, merged,
    (compares_unless_merged .gt _ _ range').2.1 merged⟩

/-- Beyond `2 ^ 53` a number may count as equal to its neighbour. -/
theorem neighbours_count_as_equal :
    Json.InRange 9007199254740993 ∧ Json.InRange 9007199254740992 ∧
      ¬(Comparator.eq.test (.int 9007199254740993) (toString (9007199254740992 : Int)) = true ↔
        Comparator.eq.Relates 9007199254740993 9007199254740992) := by
  have tests : Comparator.eq.test (.int 9007199254740993) (toString (9007199254740992 : Int)) =
      true := by decide +kernel
  refine ⟨by decide, by decide, fun exact => ?_⟩
  exact absurd (exact.mp tests) (by unfold Relates; omega)

end Switchboard.Comparator
