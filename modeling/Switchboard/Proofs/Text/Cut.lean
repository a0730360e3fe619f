import Switchboard.Proofs.Text.Words

/-!
# Texts in parts

Cutting a text at a mark finds the parts of which it is put together: there is
one way only to have a text as parts that are joined by the mark and do not
have the mark in them.
-/
namespace Switchboard.Text

/-- Nothing is lost when a text is cut. -/
theorem join_pieces (mark : Char) (text : List Char) :
    join [mark] (pieces (· == mark) text) = text := by
  induction text with
  | nil => rfl
  | cons c text ih =>
    rw [pieces]
    cases cuts : pieces (· == mark) text with
    | nil => exact absurd cuts (pieces_ne_nil _ text)
    | cons piece more =>
      rw [cuts] at ih
      split
      · rename_i here
        rw [join, ih, eq_of_beq here]
        rfl
      · cases more with
        | nil => exact congrArg (c :: ·) ih
        | cons next more => exact congrArg (c :: ·) ih

/-- Parts that are joined by a mark are found again. -/
theorem pieces_join {mark : Char} {parts : List (List Char)} (some_part : parts ≠ [])
    (free : ∀ part ∈ parts, mark ∉ part) : pieces (· == mark) (join [mark] parts) = parts := by
  induction parts with
  | nil => exact absurd rfl some_part
  | cons part parts ih =>
    obtain ⟨here, free⟩ := List.forall_mem_cons.mp free
    have solid : ∀ c ∈ part, (c == mark) = false := by
      intro c member
      refine beq_eq_false_iff_ne.mpr ?_
      rintro rfl
      exact here member
    cases parts with
    | nil =>
      have whole : pieces (· == mark) (part ++ []) = [part ++ []] := pieces_append solid rfl
      rw [List.append_nil] at whole
      exact whole
    | cons next parts =>
      have marked : pieces (· == mark) (mark :: join [mark] (next :: parts)) =
          [] :: next :: parts := by
        rw [pieces, if_pos (beq_self_eq_true mark), ih (List.cons_ne_nil _ _) free]
      have whole := pieces_append solid marked
      rw [List.append_nil] at whole
      rw [join, List.append_assoc]
      exact whole

/-- A text as parts between marks. -/
structure Parts (mark : Char) (text : String) (parts : List String) : Prop where
  some_part : parts ≠ []
  free : ∀ part ∈ parts, mark ∉ part.toList
  joined : joinStrings (String.singleton mark) parts = text

/-- The parts of a text are found by cutting it. -/
theorem parts_iff {mark : Char} {text : String} {parts : List String} :
    Parts mark text parts ↔ splitAt mark text = parts := by
  constructor
  · rintro ⟨some_part, free, rfl⟩
    have found : pieces (· == mark) (join [mark] (parts.map String.toList)) =
        parts.map String.toList :=
      pieces_join (by simpa using some_part) (by simpa using free)
    rw [splitAt, joinStrings, String.toList_ofList, String.toList_singleton, found, List.map_map]
    exact List.map_id'' (fun part => String.ofList_toList) parts
  · rintro rfl
    refine ⟨?_, ?_, ?_⟩
    · rw [splitAt, Ne, List.map_eq_nil_iff]
      exact pieces_ne_nil _ _
    · intro part member inside
      obtain ⟨piece, there, rfl⟩ := List.mem_map.mp member
      rw [String.toList_ofList] at inside
      have solid := pieces_solid (· == mark) text.toList piece there mark inside
      rw [beq_self_eq_true] at solid
      exact nomatch solid
    · have same : (splitAt mark text).map String.toList = pieces (· == mark) text.toList := by
        rw [splitAt, List.map_map]
        exact List.map_id'' (fun piece => String.toList_ofList) _
      rw [joinStrings, String.toList_singleton, same, join_pieces, String.ofList_toList]

/-- Every text consists of a first part and perhaps others. -/
theorem exists_parts (mark : Char) (text : String) :
    ∃ part parts, Parts mark text (part :: parts) := by
  cases cut : splitAt mark text with
  | nil => exact absurd rfl (parts_iff.mpr cut).some_part
  | cons part parts => exact ⟨part, parts, parts_iff.mpr cut⟩

/-- A mark between two texts separates their parts. -/
theorem pieces_between {α : Type} (cut : α → Bool) {mark : α} (cuts : cut mark = true)
    (text more : List α) :
    pieces cut (text ++ mark :: more) = pieces cut text ++ pieces cut more := by
  induction text with
  | nil => exact if_pos cuts
  | cons c text ih =>
    rw [List.cons_append, pieces, pieces, ih]
    split
    · rfl
    · cases found : pieces cut text with
      | nil => exact absurd found (pieces_ne_nil cut text)
      | cons piece others => rfl

theorem splitAt_between (mark : Char) (text more : String) :
    splitAt mark (text ++ String.singleton mark ++ more) =
      splitAt mark text ++ splitAt mark more := by
  have cut : pieces (· == mark) (text.toList ++ mark :: more.toList) =
      pieces (· == mark) text.toList ++ pieces (· == mark) more.toList :=
    pieces_between (· == mark) (beq_self_eq_true mark) _ _
  rw [splitAt, String.toList_append, String.toList_append, String.toList_singleton,
    List.append_assoc, List.singleton_append, cut, List.map_append]
  rfl

/-- A text without the mark is one part. -/
theorem splitAt_of_not_mem {mark : Char} {text : String} (absent : mark ∉ text.toList) :
    splitAt mark text = [text] := by
  refine parts_iff.mp ⟨List.cons_ne_nil _ _, ?_, ?_⟩
  · exact List.forall_mem_singleton.mpr absent
  · exact String.ofList_toList

/-- A text that has one part is this part. -/
theorem eq_of_splitAt_eq {mark : Char} {text part : String} (whole : splitAt mark text = [part]) :
    text = part := by
  have joined := (parts_iff.mpr whole).joined
  rw [← joined, joinStrings]
  exact String.ofList_toList

end Switchboard.Text
