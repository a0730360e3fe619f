import Switchboard.Proofs.Term.Bits

/-!
# The bit of the latest value

A listener that comes late knows of all the values on a line only the latest.
If that one is a bit for the term, the others do not matter. If it is none,
the late listener has no bit, whatever came before.
-/
namespace Switchboard.Term

/-- The value on the line of a term is a bit for it, if there is any. -/
def Legible (term : Term) (current : Option Json) : Prop :=
  term.path? ≠ none → ∀ value, current = some value → term.reading value ≠ none

variable {term : Term} {current : Option Json} {later : List Json} {value : Json}

theorem bitAfter_of_constant (constant : term.path? = none) :
    term.bitAfter current later = term.fallback? := by
  cases term with
  | off => exact bitAfter_constant rfl rfl rfl
  | on => exact bitAfter_constant rfl rfl rfl
  | switch bank => cases bank <;> exact nomatch constant
  | notification => exact nomatch constant
  | signal => exact nomatch constant

/-- One value more. -/
theorem bitAfter_snoc (signal : term.path? ≠ none) :
    term.bitAfter current (later ++ [value]) =
      (term.reading value).or (term.bitAfter current later) := by
  rw [bitAfter_signal signal, bitAfter_signal signal, ← List.append_assoc, List.filterMap_append,
    ← List.append_assoc, List.getLast?_append]
  cases h : term.reading value with
  | none => simp [h]
  | some b => simp [h]

/-- What is read at once from a value that is already there. -/
theorem bitAfter_now (signal : term.path? ≠ none) :
    term.bitAfter (some value) [] = term.reading value := by
  rw [bitAfter_signal signal]
  cases h : term.reading value with
  | none => simp [h]
  | some b => simp [h]

/-- A legible value stands for all that came before it. -/
theorem bitAfter_legible (legible : term.Legible (current.toList ++ later).getLast?) :
    term.bitAfter current later = term.bitAfter (current.toList ++ later).getLast? [] := by
  by_cases constant : term.path? = none
  · rw [bitAfter_of_constant constant, bitAfter_of_constant constant]
  rcases List.eq_nil_or_concat later with rfl | ⟨past, value, rfl⟩
  · cases current <;> rfl
  · have last : (current.toList ++ past.concat value).getLast? = some value := by simp
    rw [last] at legible ⊢
    obtain ⟨b, reads⟩ := Option.ne_none_iff_exists'.mp (legible constant value rfl)
    rw [bitAfter_now constant, List.concat_eq_append, bitAfter_snoc constant, reads,
      Option.some_or]

/-- An illegible value shows nothing to those who come late. -/
theorem bitAfter_illegible (illegible : ¬term.Legible current) : term.bitAfter current [] = none := by
  simp only [Legible, not_forall, not_not] at illegible
  obtain ⟨signal, value, rfl, nothing⟩ := illegible
  rw [bitAfter_now signal, nothing]

end Switchboard.Term
