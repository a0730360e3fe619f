import Switchboard.Text.Blank

/-!
# Cutting text at separators

`pieces` cuts at every separator and keeps empty pieces, so that joining the
pieces gives the text back; `words` are the non-empty pieces between blanks.
-/
namespace Switchboard.Text

/-- The stretches between the elements that `cut` accepts. -/
def pieces {α : Type u} (cut : α → Bool) : List α → List (List α)
  | [] => [[]]
  | c :: rest =>
    if cut c then [] :: pieces cut rest
    else match pieces cut rest with
      | [] => [[c]]
      | piece :: more => (c :: piece) :: more

/-- The pieces of a string between occurrences of one character. -/
def splitAt (mark : Char) (text : String) : List String :=
  (pieces (· == mark) text.toList).map String.ofList

/-- The non-empty stretches between blanks. -/
def words (text : List Char) : List (List Char) :=
  (pieces isBlank text).filter (!·.isEmpty)

/-- The text with `between` put between consecutive pieces. -/
def join (between : List Char) : List (List Char) → List Char
  | [] => []
  | [piece] => piece
  | piece :: next :: more => piece ++ between ++ join between (next :: more)

/-- The strings joined by `between`. -/
def joinStrings (between : String) (parts : List String) : String :=
  String.ofList (join between.toList (parts.map String.toList))

end Switchboard.Text
