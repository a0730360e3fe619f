import Switchboard.Expr.Evaluate
import Switchboard.Proofs.Text.Words

/-!
# Tokens and their spellings

A list of tokens can be written down with any blanks between them, and with
none where a parenthesis stands on either side. All spellings are cut into the
same tokens, and so is the text of the tokens in Polish form.
-/
namespace Switchboard.Expr

open Switchboard.Text

/-- Tokens that need no blank around them. -/
def IsMark (token : String) : Prop := token = openMark ∨ token = closeMark

/-- A word that is no parenthesis and has none in it. -/
def IsPlain (token : String) : Prop :=
  IsWord token.toList ∧ ∀ c ∈ token.toList, c ≠ '(' ∧ c ≠ ')'

theorem isPlain_of_all {token : String} (nonempty : token.toList ≠ [])
    (all : token.toList.all (fun c => !isBlank c && c != '(' && c != ')') = true) :
    IsPlain token := by
  simp only [List.all_eq_true, Bool.and_eq_true, Bool.not_eq_true', bne_iff_ne] at all
  exact ⟨⟨nonempty, fun c member => (all c member).1.1⟩,
    fun c member => ⟨(all c member).1.2, (all c member).2⟩⟩

/-- How tokens can be written down. -/
inductive Spells : List String → List Char → Prop where
  | nil {gap : List Char} (blank : ∀ c ∈ gap, isBlank c = true) : Spells [] gap
  | cons {gap : List Char} (blank : ∀ c ∈ gap, isBlank c = true) {token : String}
      {rest : List String} {text : List Char} (later : Spells rest text)
      (apart : IsMark token ∨ (∀ next ∈ rest.head?, IsMark next) ∨ Ends text) :
      Spells (token :: rest) (gap ++ token.toList ++ text)

theorem pad_append (one other : List Char) : pad (one ++ other) = pad one ++ pad other := by
  induction one with
  | nil => rfl
  | cons c one ih =>
    rw [List.cons_append, pad, pad]
    split
    · rw [ih]
      rfl
    · rw [ih]
      rfl

/-- Where no parenthesis stands, nothing is put in. -/
theorem pad_plain {text : List Char} (plain : ∀ c ∈ text, c ≠ '(' ∧ c ≠ ')') : pad text = text := by
  induction text with
  | nil => rfl
  | cons c text ih =>
    obtain ⟨⟨no_open, no_close⟩, plain⟩ := List.forall_mem_cons.mp plain
    have neither : ¬(c = '(' ∨ c = ')') := not_or.mpr ⟨no_open, no_close⟩
    rw [pad, if_neg neither, ih plain]

theorem not_mark_of_blank {c : Char} (blank : isBlank c = true) : c ≠ '(' ∧ c ≠ ')' := by
  constructor
  · rintro rfl
    exact absurd blank (by decide)
  · rintro rfl
    exact absurd blank (by decide)

theorem pad_blanks {gap : List Char} (blank : ∀ c ∈ gap, isBlank c = true) : pad gap = gap :=
  pad_plain fun c member => not_mark_of_blank (blank c member)

theorem pad_mark {token : String} (mark : IsMark token) :
    pad token.toList = ' ' :: (token.toList ++ [' ']) ∧ IsWord token.toList := by
  rcases mark with rfl | rfl
  · exact ⟨rfl, isWord_of_all (by decide) (by decide)⟩
  · exact ⟨rfl, isWord_of_all (by decide) (by decide)⟩

/-- In a padded text a token ends where a blank or a parenthesis follows. -/
theorem Spells.ends {tokens : List String} {text : List Char} (spells : Spells tokens text)
    (apart : (∀ next ∈ tokens.head?, IsMark next) ∨ Ends text) : Ends (pad text) := by
  rcases apart with marks | ends
  · cases spells with
    | nil blank =>
      rw [pad_blanks blank]
      exact fun c first => blank c (List.mem_of_mem_head? first)
    | @cons gap blank token rest text later apart =>
      rw [List.append_assoc, pad_append, pad_append, pad_blanks blank, (pad_mark (marks token rfl)).1]
      cases gap with
      | nil =>
        rintro _ ⟨⟩
        decide
      | cons c gap =>
        rintro _ ⟨⟩
        exact blank c List.mem_cons_self
  · cases text with
    | nil => exact nofun
    | cons c text =>
      have blank := ends c rfl
      obtain ⟨no_open, no_close⟩ := not_mark_of_blank blank
      rw [pad, if_neg (not_or.mpr ⟨no_open, no_close⟩)]
      rintro _ ⟨⟩
      exact blank

/-- However tokens are written down, they are found again. -/
theorem Spells.words_pad {tokens : List String} {text : List Char} (spells : Spells tokens text)
    (all : ∀ token ∈ tokens, IsMark token ∨ IsPlain token) :
    words (pad text) = tokens.map String.toList := by
  induction spells with
  | nil blank =>
    have nothing := words_blanks blank []
    rw [List.append_nil] at nothing
    rw [pad_blanks blank, nothing]
    rfl
  | @cons gap blank token rest text later apart ih =>
    obtain ⟨first, all⟩ := List.forall_mem_cons.mp all
    rw [List.append_assoc, pad_append, pad_append, pad_blanks blank, words_blanks blank, List.map_cons,
      ← ih all]
    rcases first with mark | ⟨word, plain⟩
    · obtain ⟨padded, word⟩ := pad_mark mark
      have closes : Ends (' ' :: pad text) := by
        rintro _ ⟨⟩
        decide
      rw [padded, List.cons_append, words_blank (by decide), List.append_assoc, List.singleton_append,
        words_append word closes, words_blank (by decide)]
    · rw [pad_plain plain]
      rcases apart with mark | apart
      · have padded := (pad_mark mark).1
        rw [pad_plain plain] at padded
        have lengths := congrArg List.length padded
        rw [List.length_cons, List.length_append] at lengths
        omega
      · exact words_append word (later.ends apart)

/-- However tokens are written down, they are found again. -/
theorem tokenize_of_spells {tokens : List String} {text : String} (spells : Spells tokens text.toList)
    (all : ∀ token ∈ tokens, IsMark token ∨ IsPlain token) : tokenize text = tokens := by
  rw [tokenize, spells.words_pad all, List.map_map]
  exact List.map_id'' (fun token => String.ofList_toList) tokens

/-- The tokens of a text are words. -/
theorem isWord_of_mem_tokensOf {text token : String} (found : token ∈ tokensOf text) :
    IsWord token.toList := by
  obtain ⟨word, member, rfl⟩ := List.mem_map.mp found
  rw [String.toList_ofList]
  exact isWord_of_mem_words member

theorem isWord_of_mem_tokenize {text token : String} (found : token ∈ tokenize text) :
    IsWord token.toList := by
  obtain ⟨word, member, rfl⟩ := List.mem_map.mp found
  rw [String.toList_ofList]
  exact isWord_of_mem_words member

theorem areWords_of_all {tokens : List String}
    (all : tokens.all (fun token => !token.toList.isEmpty && token.toList.all (!isBlank ·)) = true) :
    ∀ token ∈ tokens, IsWord token.toList := by
  intro token member
  obtain ⟨nonempty, solid⟩ := Bool.and_eq_true_iff.mp (List.all_eq_true.mp all token member)
  exact isWord_of_all (by simpa using nonempty) solid

/-- Tokens that are joined by blanks are found again. -/
theorem tokensOf_joinStrings {tokens : List String}
    (all : ∀ token ∈ tokens, IsWord token.toList) : tokensOf (joinStrings " " tokens) = tokens := by
  have words_of : ∀ part ∈ tokens.map String.toList, IsWord part := by
    intro part member
    obtain ⟨token, there, rfl⟩ := List.mem_map.mp member
    exact all token there
  have blank : ∀ c ∈ " ".toList, isBlank c = true := List.forall_mem_singleton.mpr rfl
  rw [tokensOf, joinStrings, String.toList_ofList, words_join (by decide) blank words_of,
    List.map_map]
  exact List.map_id'' (fun token => String.ofList_toList) tokens

end Switchboard.Expr
