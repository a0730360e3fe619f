import Switchboard.Json.Printer
import Switchboard.Json.Token
import Switchboard.Proofs.Number.Rounding
import Switchboard.Signal.Coercion

/-!
# Whole numbers in decimal

A whole number that is written in decimal is read back, both as a numeral of
JSON text, where it stays a whole number, and as the operand of a comparison,
where it becomes the nearest number of the 64-bit format. The range is that of
whole numbers in JSON values: beyond it a numeral of JSON text would not denote
a whole number any more.
-/
namespace Switchboard

/-! ### Digits -/

/-- Digits end here: the text is over or goes on with something else. -/
def NoDigit (rest : List Char) : Prop := ∀ c ∈ rest.head?, c.isDigit = false

theorem takeDigits_append {digits rest : List Char} (all : ∀ c ∈ digits, c.isDigit = true)
    (ends : NoDigit rest) : takeDigits (digits ++ rest) = (digits.map digitOf, rest) := by
  have stops : rest.takeWhile Char.isDigit = [] ∧ rest.dropWhile Char.isDigit = rest := by
    cases rest with
    | nil => exact ⟨rfl, rfl⟩
    | cons c rest =>
      have here : c.isDigit = false := ends c rfl
      simp [here]
  rw [takeDigits, List.takeWhile_append_of_pos all, List.dropWhile_append_of_pos all, stops.1,
    stops.2, List.append_nil]

theorem isDigit_toDigits {n : Nat} {c : Char} (member : c ∈ Nat.toDigits 10 n) :
    c.isDigit = true :=
  Nat.isDigit_of_mem_toDigits (by decide) (by decide) member

theorem takeDigits_toDigits (n : Nat) {rest : List Char} (ends : NoDigit rest) :
    takeDigits (Nat.toDigits 10 n ++ rest) = ((Nat.toDigits 10 n).map digitOf, rest) :=
  takeDigits_append (fun _ => isDigit_toDigits) ends

/-- The digits of a number denote it. -/
theorem ofDigits_toDigits (n : Nat) : ofDigits ((Nat.toDigits 10 n).map digitOf) = n := by
  rw [ofDigits, List.foldl_map]
  exact Nat.ofDigitChars_eq_foldl.symm.trans Nat.ofDigitChars_ten_toDigits

/-- Zeros in front of digits do not count. -/
theorem ofDigits_dropWhile (digits : List Nat) :
    ofDigits (digits.dropWhile (· == 0)) = ofDigits digits := by
  induction digits with
  | nil => rfl
  | cons digit digits ih =>
    rw [List.dropWhile_cons]
    split
    · rename_i zero
      obtain rfl : digit = 0 := eq_of_beq zero
      exact ih
    · rfl

theorem digitChar_eq_zero : ∀ n < 10, Nat.digitChar n = '0' → n = 0 := by decide

/-- Only zero itself begins with a zero. -/
theorem head_toDigits (n : Nat) : (Nat.toDigits 10 n).head? = some '0' → n = 0 := by
  induction n using Nat.strongRecOn with
  | ind n ih =>
    intro leads
    by_cases small : n < 10
    · rw [Nat.toDigits_of_lt_base small, List.head?_cons] at leads
      exact digitChar_eq_zero n small (Option.some.inj leads)
    · rw [Nat.toDigits_of_base_le (by decide) (by omega), List.head?_append,
        Option.or_of_isSome (by simp)] at leads
      have := ih (n / 10) (by omega) leads
      omega

theorem digitOf_eq_zero {c : Char} (digit : c.isDigit = true) (zero : digitOf c = 0) : c = '0' := by
  have bounds : '0'.toNat ≤ c.toNat := by
    have := Char.isDigit_iff_toNat.mp digit
    exact this.1
  have same : c.toNat = '0'.toNat := by
    unfold digitOf at zero
    omega
  exact Char.toNat_inj.mp same

/-! ### Numerals -/

/-- The numeral of a whole number, as it is written in decimal. -/
def Numeral.ofInt (n : Int) : Numeral :=
  ⟨n < 0, (Nat.toDigits 10 n.natAbs).map digitOf, [], 0⟩

namespace Json

/-- Whole numbers that values can hold. -/
def InRange (n : Int) : Prop := -(signedLimit : Int) ≤ n ∧ n ≤ maxWord

instance (n : Int) : Decidable (InRange n) := inferInstanceAs (Decidable (_ ∧ _))

theorem InRange.natAbs_le {n : Int} (range : InRange n) : n.natAbs ≤ maxWord := by
  obtain ⟨low, high⟩ := range
  unfold maxWord at *
  unfold signedLimit at low
  omega

theorem intText_eq (n : Int) : intText n = (toString n).toList := by
  rw [Int.toString_eq_repr, Int.repr_eq_if, intText]
  by_cases negative : n < 0
  · rw [if_pos negative, if_neg (by omega), String.toList_append, Nat.toList_repr]
    have size : n.natAbs = (-n).toNat := by omega
    rw [size]
    rfl
  · rw [if_neg negative, if_pos (by omega), Nat.toList_repr]
    have size : n.natAbs = n.toNat := by omega
    rw [size]

/-- Within range a plain numeral denotes the whole number. -/
theorem numberOf?_ofInt {n : Int} (range : InRange n) :
    numberOf? true (Numeral.ofInt n) = some (.int n) := by
  have size := range.natAbs_le
  obtain ⟨low, high⟩ := range
  unfold numberOf? Numeral.ofInt
  dsimp only
  rw [ofDigits_toDigits]
  by_cases negative : n < 0
  · have within : ¬(n.natAbs = 0 ∨ signedLimit < n.natAbs) := by omega
    simp only [Bool.true_and, decide_eq_true size, decide_eq_true negative, Bool.not_true, if_true,
      Bool.false_eq_true, if_false, within]
    congr
    omega
  · simp only [Bool.true_and, decide_eq_true size, decide_eq_false negative, Bool.not_false, if_true]
    congr
    omega

/-- Nothing follows by which a plain numeral would go on. -/
def NumeralEnds (rest : List Char) : Prop :=
  ∀ c ∈ rest.head?, c.isDigit = false ∧ c ≠ '.' ∧ c ≠ 'e' ∧ c ≠ 'E'

theorem NumeralEnds.noDigit {rest : List Char} (ends : NumeralEnds rest) : NoDigit rest :=
  fun c head => (ends c head).1

/-- The whole part of a numeral does not begin with a zero that is followed by digits. -/
theorem takeWhole_toDigits (n : Nat) {rest : List Char} (ends : NoDigit rest) :
    takeWhole (Nat.toDigits 10 n ++ rest) = some ((Nat.toDigits 10 n).map digitOf, rest) := by
  unfold takeWhole
  rw [takeDigits_toDigits n ends]
  cases digits : Nat.toDigits 10 n with
  | nil => exact absurd digits Nat.toDigits_ne_nil
  | cons c more =>
    cases more with
    | nil => simp
    | cons next more =>
      have nonzero : digitOf c ≠ 0 := by
        intro zero
        have digit : c.isDigit = true := isDigit_toDigits (n := n) (by rw [digits]; simp)
        obtain rfl := digitOf_eq_zero digit zero
        have n_zero := head_toDigits n (by rw [digits]; rfl)
        subst n_zero
        exact absurd digits (by simp)
      rw [List.map_cons, List.map_cons]
      split
      · rename_i empty
        exact nomatch empty
      · rename_i zero
        injection zero with heads
        injection heads with first
        exact absurd first nonzero
      · rename_i same
        injection same with first second
        rw [first, second]

/-- A whole number at the head of a text is read back. -/
theorem takeNumber_intText {n : Int} (range : InRange n) {rest : List Char}
    (ends : NumeralEnds rest) :
    takeNumber (n < 0) (Nat.toDigits 10 n.natAbs ++ rest) = some (some (.int n), rest) := by
  unfold takeNumber
  rw [takeWhole_toDigits _ ends.noDigit]
  have denotes := numberOf?_ofInt range
  unfold Numeral.ofInt at denotes
  cases rest with
  | nil => simp only [List.isEmpty_nil, denotes]
  | cons c rest =>
    obtain ⟨_, no_point, no_small, no_capital⟩ := ends c rfl
    simp [no_point, no_small, no_capital, denotes]

end Json

/-! ### Operands -/

theorem Text.trim_of_solid {text : List Char} (solid : ∀ c ∈ text, isBlank c = false) :
    trim text = text := by
  have whole (some_text : List Char) (solid : ∀ c ∈ some_text, isBlank c = false) :
      some_text.dropWhile isBlank = some_text := by
    cases some_text with
    | nil => rfl
    | cons c some_text => simp [solid c List.mem_cons_self]
  rw [trim, whole text solid, whole text.reverse (by simpa using solid), List.reverse_reverse]

theorem Text.isBlank_of_isDigit {c : Char} (digit : c.isDigit = true) : isBlank c = false := by
  have bounds := Char.isDigit_iff_toNat.mp digit
  have low : 48 ≤ c.toNat := bounds.1
  have high : c.toNat ≤ 57 := bounds.2
  unfold isBlank
  simp only [Bool.or_eq_false_iff, Bool.and_eq_false_iff, decide_eq_false_iff_not,
    beq_eq_false_iff_ne]
  omega

theorem Numeral.ofText?_intText (n : Int) :
    Numeral.ofText? (Json.intText n) = some (Numeral.ofInt n) := by
  have ends : NoDigit [] := nofun
  have digits := takeDigits_toDigits n.natAbs ends
  rw [List.append_nil] at digits
  have some_digit : ((Nat.toDigits 10 n.natAbs).map digitOf).isEmpty = false := by simp
  unfold Json.intText Numeral.ofText? Numeral.ofInt
  by_cases negative : n < 0
  · rw [if_pos negative]
    simp [digits, negative]
  · rw [if_neg negative]
    have unsigned (sign : Char) (no_digit : sign.isDigit = false) (rest : List Char) :
        Nat.toDigits 10 n.natAbs ≠ sign :: rest := by
      intro signed
      have digit := isDigit_toDigits (n := n.natAbs) (c := sign) (by rw [signed]; simp)
      exact absurd digit (by simp [no_digit])
    split
    rename_i sign body signed
    have plain : (false, Nat.toDigits 10 n.natAbs) = (sign, body) := by
      split at signed
      · rename_i minus
        exact absurd minus (unsigned '-' rfl _)
      · rename_i plus
        exact absurd plus (unsigned '+' rfl _)
      · exact signed
    obtain ⟨rfl, rfl⟩ := Prod.mk.inj plain
    simp [digits, negative]

/-- Within range a plain numeral is read as the number nearest to it. -/
theorem Numeral.nearest?_ofInt {n : Int} (range : Json.InRange n) :
    (Numeral.ofInt n).nearest? = some (.ofInt n) := by
  have size := range.natAbs_le
  have value : ofDigits (((Nat.toDigits 10 n.natAbs).map digitOf).dropWhile (· == 0)) = n.natAbs :=
    (ofDigits_dropWhile _).trans (ofDigits_toDigits _)
  have short : (((Nat.toDigits 10 n.natAbs).map digitOf).dropWhile (· == 0)).length ≤ 20 := by
    have digits : (Nat.toDigits 10 n.natAbs).length ≤ 20 := by
      rw [Nat.length_toDigits_le_iff (by decide) (by decide)]
      exact Nat.lt_of_le_of_lt size (by decide)
    refine Nat.le_trans (List.dropWhile_sublist _).length_le ?_
    rwa [List.length_map]
  have finite : ¬(Binary64.ofInt n).Overflows :=
    Binary64.not_overflows_ofInt (Nat.le_trans size (by decide))
  have digits : (Numeral.ofInt n).digits = (Nat.toDigits 10 n.natAbs).map digitOf :=
    List.append_nil _
  have scale : (Numeral.ofInt n).scale = 0 := rfl
  unfold nearest?
  dsimp only
  rw [digits, scale, value]
  by_cases zero : n.natAbs = 0
  · obtain rfl : n = 0 := by omega
    rfl
  · rw [if_neg (by omega), if_neg (by omega), if_pos (Int.le_refl 0)]
    have plain : Binary64.ofRatio (Numeral.ofInt n).negative (n.natAbs * Nat.pow 10 (Int.toNat 0)) 1 =
        .ofInt n := by
      rw [Int.toNat_zero, Nat.pow_eq, Nat.pow_zero, Nat.mul_one]
      rfl
    rw [plain, if_neg finite]

/-- The operand that is written for a whole number stands for the number nearest to it. -/
theorem numberOfText?_toString {n : Int} (range : Json.InRange n) :
    numberOfText? (toString n) = some (.ofInt n) := by
  have solid : ∀ c ∈ Json.intText n, Text.isBlank c = false := by
    intro c member
    unfold Json.intText at member
    split at member
    · rcases List.mem_cons.mp member with rfl | member
      · decide
      · exact Text.isBlank_of_isDigit (isDigit_toDigits member)
    · exact Text.isBlank_of_isDigit (isDigit_toDigits member)
  rw [numberOfText?, ← Json.intText_eq, Text.trim_of_solid solid, Numeral.ofText?_intText,
    Option.bind_some, Numeral.nearest?_ofInt range]

end Switchboard
