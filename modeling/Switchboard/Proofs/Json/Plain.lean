import Mathlib.Data.List.TakeWhile
import Switchboard.Proofs.Json.Readback

/-!
# Texts of whole numbers

A text that is read as a whole number is written with digits and a sign alone,
blanks around it apart. The text of a number with a fraction has a point or an
exponent in it. So the one is never the other, even where both numbers are the
same amount.
-/
namespace Switchboard.Json

/-! ### What is read as a whole number -/

theorem numberOf?_false_ne_int (n : Numeral) (m : Int) : numberOf? false n ≠ some (.int m) := by
  rw [numberOf?, Bool.false_and, if_neg Bool.false_ne_true]
  intro found
  obtain ⟨x, _, other⟩ := Option.map_eq_some_iff.mp found
  exact nomatch other

/-- The rest of a numeral's text when the numeral is a whole number. -/
theorem rest_of_takeWhole {text rest : List Char} {whole : List Nat}
    (taken : takeWhole text = some (whole, rest)) : rest = text.dropWhile Char.isDigit := by
  unfold takeWhole at taken
  split at taken
  · exact nomatch taken
  · exact nomatch taken
  · rename_i digits rest' _ _ cut
    rw [takeDigits] at cut
    obtain ⟨_, rfl⟩ := Prod.mk.inj (Option.some.inj taken)
    exact (Prod.mk.inj cut).2.symm

/-- Of a text only digits are taken for a whole number. -/
theorem rest_of_takeNumber {negative : Bool} {text rest : List Char} {n : Int}
    (taken : takeNumber negative text = some (some (.int n), rest)) :
    rest = text.dropWhile Char.isDigit := by
  -- With a fraction or an exponent there is no whole number.
  have whole_only {numeral : Numeral} {plain : Bool} {after : List Char}
      (same : some (numberOf? plain numeral, after) = some (some (.int n), rest)) :
      plain = true ∧ after = rest := by
    obtain ⟨number, after_rest⟩ := Prod.mk.inj (Option.some.inj same)
    refine ⟨Bool.eq_true_of_not_eq_false fun fractional => ?_, after_rest⟩
    rw [fractional] at number
    exact numberOf?_false_ne_int _ _ number
  unfold takeNumber at taken
  split at taken
  · exact nomatch taken
  rename_i whole after start
  dsimp only at taken
  split at taken
  · exact nomatch taken
  rename_i fraction last fractional
  have no_fraction (empty : fraction.isEmpty = true) : last = after := by
    rw [List.isEmpty_iff] at empty
    subst empty
    split at fractional
    · split at fractional
      · exact nomatch fractional
      · rename_i digits some_digit
        exact absurd (Option.some.inj fractional) (some_digit last)
    · exact (Prod.mk.inj (Option.some.inj fractional)).2.symm
  have after_digits := rest_of_takeWhole start
  split at taken
  · split at taken
    · split at taken
      · exact nomatch taken
      · exact nomatch (whole_only taken).1
    · obtain ⟨empty, rfl⟩ := whole_only taken
      rw [no_fraction empty, after_digits]
  · obtain ⟨empty, rfl⟩ := whole_only taken
    rw [no_fraction empty, after_digits]

/-- A character of a whole number or a blank. -/
def IsPlain (c : Char) : Prop := isSpace c = true ∨ c = '-' ∨ c.isDigit = true

theorem isPlain_of_mem {text : List Char} {c : Char} (member : c ∈ text) :
    IsPlain c ∨ c ∈ text.dropWhile Char.isDigit := by
  rw [← List.takeWhile_append_dropWhile (p := Char.isDigit) (l := text)] at member
  rcases List.mem_append.mp member with digit | later
  · exact .inl (.inr (.inr (List.mem_takeWhile_imp digit)))
  · exact .inr later

theorem isPlain_of_takeToken {text rest : List Char} {n : Int}
    (taken : takeToken text = (.number (some (.int n)), rest)) {c : Char} (member : c ∈ text) :
    IsPlain c ∨ c ∈ rest := by
  unfold takeToken at taken
  split at taken
  all_goals try cases (Prod.mk.inj taken).1
  · split at taken <;> exact nomatch (Prod.mk.inj taken).1
  · split at taken
    · rename_i value after found
      obtain ⟨same, rfl⟩ := Prod.mk.inj taken
      rw [Token.number.inj same] at found
      rw [rest_of_takeNumber found]
      rcases List.mem_cons.mp member with rfl | member
      · exact .inl (.inr (.inl rfl))
      · exact isPlain_of_mem member
    · exact nomatch (Prod.mk.inj taken).1
  · split at taken
    · rename_i value after found
      obtain ⟨same, rfl⟩ := Prod.mk.inj taken
      rw [Token.number.inj same] at found
      rw [rest_of_takeNumber found]
      exact isPlain_of_mem member
    · exact nomatch (Prod.mk.inj taken).1

/-- Where no token is left, there are blanks only. -/
theorem blank_of_no_tokens {fuel : Nat} {text : List Char}
    (nothing : tokensFrom (fuel + 1) text = []) {c : Char} (member : c ∈ text) :
    isSpace c = true := by
  rw [tokensFrom] at nothing
  split at nothing
  · rename_i blanks
    exact List.dropWhile_eq_nil_iff.mp blanks c member
  · split at nothing
    · exact absurd nothing (List.cons_ne_nil _ _)
    · exact absurd nothing (List.cons_ne_nil _ _)

/-- A text of one token, a whole number. -/
theorem isPlain_of_tokens {text : List Char} {n : Int}
    (cut : tokens text = [.number (some (.int n))]) {c : Char} (member : c ∈ text) :
    IsPlain c := by
  rw [tokens, tokensFrom] at cut
  rw [← List.takeWhile_append_dropWhile (p := isSpace) (l := text)] at member
  split at cut
  · exact absurd cut.symm (List.cons_ne_nil _ _)
  · split at cut
    · cases cut
    · rename_i token rest _ taken
      obtain ⟨rfl, nothing⟩ := List.cons.inj cut
      obtain ⟨fuel, some_fuel⟩ : ∃ fuel, text.length = fuel + 1 := by
        refine ⟨text.length - 1, ?_⟩
        have := List.length_pos_of_mem member
        rw [List.takeWhile_append_dropWhile] at this
        omega
      rw [some_fuel] at nothing
      rcases List.mem_append.mp member with blank | solid
      · exact .inl (List.mem_takeWhile_imp blank)
      · rcases isPlain_of_takeToken taken solid with plain | later
        · exact plain
        · exact .inl (blank_of_no_tokens nothing later)

/-- Nothing but one token makes a whole number. -/
theorem tokens_of_ofText?_int {text : String} {n : Int} (found : ofText? text = some (.int n)) :
    tokens text.toList = [.number (some (.int n))] := by
  unfold ofText? at found
  split at found
  · rename_i document whole
    have number : document = .number (some (.int n)) := by
      cases document with
      | broken => cases found
      | null => cases found
      | bool => cases found
      | number value =>
        cases value with
        | none => cases found
        | some value =>
          cases value with
          | int m =>
            obtain rfl := Json.int.inj (Option.some.inj found)
            rfl
          | float x => cases found
      | string text =>
        obtain ⟨_, _, other⟩ := Option.map_eq_some_iff.mp found
        cases other
      | array items =>
        obtain ⟨_, _, other⟩ := Option.map_eq_some_iff.mp found
        cases other
      | object members =>
        obtain ⟨_, _, other⟩ := Option.map_eq_some_iff.mp found
        cases other
    subst number
    unfold Document.ofText at whole
    split at whole
    rename_i document rest taken
    obtain ⟨rfl, nothing⟩ := Prod.mk.inj whole
    obtain rfl : rest = [] := by simpa using nothing
    unfold Document.ofTokens at taken
    unfold Document.take at taken
    split at taken
    all_goals try cases (Prod.mk.inj taken).1
    obtain rfl := (Prod.mk.inj taken).2
    assumption
  · cases found

/-- What reads as a whole number has no point and no exponent. -/
theorem isPlain_of_ofText? {text : String} {n : Int} (found : ofText? text = some (.int n)) :
    ∀ c ∈ text.toList, IsPlain c :=
  fun _ => isPlain_of_tokens (tokens_of_ofText?_int found)

/-! ### What is written -/

/-- A whole number is read back. -/
theorem ofText?_int {n : Int} (range : InRange n) : ofText? (Json.int n).text = some (.int n) := by
  have exact_value : (Json.int n).Exact := range
  rw [ofText?, ofText_text exact_value]
  rfl

theorem mark_of_layout (digits : List Char) (exponent : Int) :
    '.' ∈ layout digits exponent ∨ 'e' ∈ layout digits exponent := by
  unfold layout
  split
  · left
    split
    · simp
    · dsimp only
      split <;> simp
  · right
    simp

/-- The text of a number with a fraction shows that it is one. -/
theorem mark_of_floatText (x : Binary64) : '.' ∈ floatText x ∨ 'e' ∈ floatText x := by
  unfold floatText
  dsimp only
  by_cases zero : x.isZero = true
  · rw [if_pos zero]
    left
    split <;> simp
  · rw [if_neg zero]
    have marked := mark_of_layout (significant (shortestDecimal x.units)).1
      (significant (shortestDecimal x.units)).2
    split
    · exact marked.imp (List.mem_cons_of_mem _) (List.mem_cons_of_mem _)
    · exact marked

/-- It is never read as a whole number. -/
theorem ofText?_float_ne_int (x : Binary64) (n : Int) :
    ofText? (Json.float x).text ≠ some (.int n) := by
  intro found
  have plain := isPlain_of_ofText? found
  rw [text, String.toList_ofList, write] at plain
  rcases mark_of_floatText x with point | exponent
  · exact absurd (plain _ point) (by unfold IsPlain; decide)
  · exact absurd (plain _ exponent) (by unfold IsPlain; decide)

end Switchboard.Json
