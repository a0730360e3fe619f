import Switchboard.Text.Spelled

/-!
# Text by bytes

Some places in a text are given by the number of bytes before them. Such a
place may turn out to lie inside a character, where no text can be cut.
-/
namespace Switchboard.Text

/-- The number of bytes of a text. -/
def byteLength (text : List Char) : Nat := (text.map Char.utf8Size).foldl (· + ·) 0

/-- A place inside a character of a text. -/
structure SplitChar where
  /-- The number of bytes before the place. -/
  place : Nat
  char : Char
  /-- The number of bytes before the character. -/
  start : Nat
  deriving Repr, DecidableEq

def SplitChar.message (split : SplitChar) : String :=
  "end byte index " ++ toString split.place ++ " is not a char boundary; it is inside '" ++
    String.ofList (spelling split.char) ++ "' (bytes " ++ toString split.start ++ ".." ++
    toString (split.start + split.char.utf8Size) ++ " of string)"

/-- Cuts a text after a number of bytes; `start` is the number of bytes before the text. -/
def cutFrom (start : Nat) : Nat → List Char → Except SplitChar (List Char × List Char)
  | _, [] => .ok ([], [])
  | length, c :: rest =>
    if length = 0 then .ok ([], c :: rest)
    else if length < c.utf8Size then .error ⟨start + length, c, start⟩
    else
      (cutFrom (start + c.utf8Size) (length - c.utf8Size) rest).map fun (before, after) =>
        (c :: before, after)

/-- Nothing is lost by cutting. -/
theorem append_of_cutFrom {start length : Nat} {text before after : List Char}
    (h : cutFrom start length text = .ok (before, after)) : before ++ after = text := by
  induction text generalizing start length before with
  | nil =>
    obtain ⟨rfl, rfl⟩ : before = [] ∧ after = [] := by simpa [cutFrom, eq_comm] using h
    rfl
  | cons c rest ih =>
    rw [cutFrom] at h
    split at h
    · obtain ⟨rfl, rfl⟩ : before = [] ∧ after = c :: rest := by simpa [eq_comm] using h
      rfl
    · split at h
      · contradiction
      · cases hcut : cutFrom (start + c.utf8Size) (length - c.utf8Size) rest with
        | error cut => simp [hcut, Except.map] at h
        | ok pair =>
          obtain ⟨rfl, rfl⟩ : before = c :: pair.1 ∧ after = pair.2 := by
            simpa [hcut, Except.map, eq_comm] using h
          simp [ih hcut]

/-- The text before a place, and the text after it. -/
def cutAtByte (place : Nat) (text : List Char) : Except SplitChar (List Char × List Char) :=
  cutFrom 0 place text

/-- The text from a place on. -/
def fromByte (place : Nat) (text : List Char) : Except SplitChar (List Char) :=
  (cutAtByte place text).map Prod.snd

/-- The text between two places. -/
def betweenBytes (first last : Nat) (text : List Char) : Except SplitChar (List Char) :=
  (fromByte first text).bind fun rest => (cutFrom first (last - first) rest).map Prod.fst

end Switchboard.Text
