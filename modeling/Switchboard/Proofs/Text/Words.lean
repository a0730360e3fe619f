import Switchboard.Text.Pieces

/-!
# Words of a text

A word is a stretch of characters without blanks that is not empty. Cutting a
text finds the words it has been put together from, whatever blanks stand
between them.
-/
namespace Switchboard.Text

/-- A stretch of characters that is found as one. -/
def IsWord (word : List Char) : Prop := word ≠ [] ∧ ∀ c ∈ word, isBlank c = false

theorem isWord_of_all {word : List Char} (nonempty : word ≠ [])
    (all : word.all (fun c => !isBlank c) = true) : IsWord word :=
  ⟨nonempty, by simpa using all⟩

/-- Nothing follows, or a blank does. -/
def Ends (rest : List Char) : Prop := ∀ c ∈ rest.head?, isBlank c = true

theorem words_nil : words [] = [] := rfl

theorem words_blank {c : Char} (blank : isBlank c = true) (rest : List Char) :
    words (c :: rest) = words rest := by
  rw [words, pieces, if_pos blank]
  rfl

theorem words_blanks {gap : List Char} (blank : ∀ c ∈ gap, isBlank c = true) (rest : List Char) :
    words (gap ++ rest) = words rest := by
  induction gap with
  | nil => rfl
  | cons c gap ih =>
    obtain ⟨first, blank⟩ := List.forall_mem_cons.mp blank
    rw [List.cons_append, words_blank first, ih blank]

/-- Where a text begins with a blank or is at its end, its first piece is empty. -/
theorem pieces_of_ends {rest : List Char} (ends : Ends rest) :
    ∃ more, pieces isBlank rest = [] :: more := by
  cases rest with
  | nil => exact ⟨[], rfl⟩
  | cons c rest =>
    have blank : isBlank c = true := ends c rfl
    refine ⟨pieces isBlank rest, ?_⟩
    rw [pieces, if_pos blank]

/-- A stretch at which nothing is cut goes to the first piece. -/
theorem pieces_append {α : Type} {cut : α → Bool} {word : List α}
    (solid : ∀ c ∈ word, cut c = false) {rest first : List α} {more : List (List α)}
    (cuts : pieces cut rest = first :: more) :
    pieces cut (word ++ rest) = (word ++ first) :: more := by
  induction word with
  | nil => exact cuts
  | cons c word ih =>
    obtain ⟨here, solid⟩ := List.forall_mem_cons.mp solid
    have open_word : ¬cut c = true := by simp [here]
    rw [List.cons_append, pieces, if_neg open_word, ih solid]
    rfl

theorem words_append {word : List Char} (is_word : IsWord word) {rest : List Char}
    (ends : Ends rest) : words (word ++ rest) = word :: words rest := by
  obtain ⟨nonempty, solid⟩ := is_word
  obtain ⟨more, cut⟩ := pieces_of_ends ends
  rw [words, pieces_append solid cut, List.append_nil, words, cut,
    List.filter_cons_of_pos (by simpa using nonempty)]
  rfl

theorem pieces_ne_nil {α : Type} (cut : α → Bool) (text : List α) : pieces cut text ≠ [] := by
  cases text with
  | nil => exact nofun
  | cons c rest =>
    rw [pieces]
    split
    · exact nofun
    · split <;> exact nofun

/-- The elements of the pieces are elements of the text. -/
theorem mem_of_pieces {α : Type} {cut : α → Bool} {text piece : List α}
    (there : piece ∈ pieces cut text) : ∀ c ∈ piece, c ∈ text := by
  induction text generalizing piece with
  | nil =>
    obtain rfl := List.mem_singleton.mp there
    exact nofun
  | cons first rest ih =>
    intro c within
    rw [pieces] at there
    split at there
    · rcases List.mem_cons.mp there with rfl | there
      · cases within
      · exact List.mem_cons_of_mem _ (ih there c within)
    · split at there
      · obtain rfl := List.mem_singleton.mp there
        rw [List.mem_singleton.mp within]
        exact List.mem_cons_self
      · rename_i next more cuts
        rw [cuts] at ih
        rcases List.mem_cons.mp there with rfl | there
        · rcases List.mem_cons.mp within with rfl | within
          · exact List.mem_cons_self
          · exact List.mem_cons_of_mem _ (ih List.mem_cons_self c within)
        · exact List.mem_cons_of_mem _ (ih (List.mem_cons_of_mem _ there) c within)

/-- No piece has an element in it at which the text is cut. -/
theorem pieces_solid {α : Type} (cut : α → Bool) (text : List α) :
    ∀ piece ∈ pieces cut text, ∀ c ∈ piece, cut c = false := by
  induction text with
  | nil =>
    intro piece member c inside
    obtain rfl : piece = [] := List.mem_singleton.mp member
    exact nomatch inside
  | cons first text ih =>
    rw [pieces]
    split
    · exact List.forall_mem_cons.mpr ⟨nofun, ih⟩
    · rename_i solid
      have here : cut first = false := Bool.eq_false_iff.mpr solid
      cases cuts : pieces cut text with
      | nil => simpa using here
      | cons piece more =>
        rw [cuts] at ih
        obtain ⟨inside, others⟩ := List.forall_mem_cons.mp ih
        exact List.forall_mem_cons.mpr ⟨List.forall_mem_cons.mpr ⟨here, inside⟩, others⟩

/-- What is found in a text are words. -/
theorem isWord_of_mem_words {text word : List Char} (found : word ∈ words text) : IsWord word := by
  obtain ⟨piece, nonempty⟩ := List.mem_filter.mp found
  exact ⟨by simpa using nonempty, pieces_solid isBlank text word piece⟩

/-- Words that are joined by blanks are found again. -/
theorem words_join {between : List Char} (nonempty : between ≠ [])
    (blank : ∀ c ∈ between, isBlank c = true) {parts : List (List Char)}
    (all : ∀ part ∈ parts, IsWord part) : words (join between parts) = parts := by
  induction parts with
  | nil => rfl
  | cons part parts ih =>
    obtain ⟨is_word, all⟩ := List.forall_mem_cons.mp all
    cases parts with
    | nil =>
      have found := words_append is_word (show Ends [] from nofun)
      rw [List.append_nil, words_nil] at found
      exact found
    | cons next parts =>
      have ends : Ends (between ++ join between (next :: parts)) := by
        cases between with
        | nil => exact absurd rfl nonempty
        | cons c between =>
          rintro _ ⟨⟩
          exact blank c List.mem_cons_self
      rw [join, List.append_assoc, words_append is_word ends, words_blanks blank, ih all]

end Switchboard.Text
