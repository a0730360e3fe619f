import Switchboard.Yaml.Gap

/-!
# Scalars in quotes

In single quotes a quote is written twice, in double quotes a backslash begins
an escape, which may also be the end of a line. No mark between documents may
stand inside.
-/
namespace Switchboard.Yaml

/-- What may follow a backslash. -/
def escape? : Char → Option Text.Escape
  | '0' => some (.char (Char.ofNat 0))
  | 'a' => some (.char (Char.ofNat 7))
  | 'v' => some (.char (Char.ofNat 11))
  | 'e' => some (.char (Char.ofNat 27))
  | ' ' => some (.char ' ')
  | '\t' => some (.char '\t')
  | '/' => some (.char '/')
  | 'N' => some (.char nextLine)
  | '_' => some (.char (Char.ofNat 0xA0))
  | 'L' => some (.char lineSeparator)
  | 'P' => some (.char paragraphSeparator)
  | 'x' => some (.code 2)
  | c => Text.plainQuoting.escape? c

/-- The character that a number of hexadecimal digits denotes. -/
def charOfHex? (digits : List Char) (count : Nat) : Option Char :=
  match digits.mapM Json.hexDigit? with
  | none => none
  | some values =>
    let code := values.foldl (16 * · + ·) 0
    if values.length = count ∧ code.isValidChar then some (Char.ofNat code) else none

/-- The character that an escape after its backslash stands for, and its length. -/
def escaped? : List Char → Option (Char × Nat)
  | [] => none
  | c :: rest =>
    match escape? c with
    | none => none
    | some (.char meant) => some (meant, 1)
    | some (.code count) => (charOfHex? (rest.take count) count).map (·, count + 1)

/-- The quotes a scalar stands in. -/
inductive Quotes where
  | single
  | double
  deriving DecidableEq

def Quotes.mark : Quotes → Char
  | .single => '\''
  | .double => '"'

/-- Puts text before what has been read. -/
def before (text : List Char) (read : List Char × Cursor) : List Char × Cursor :=
  (text ++ read.1, read.2)

/-- The text up to the closing quote, and the place after it. -/
def takeQuoted (quotes : Quotes) : Nat → Cursor → Option (List Char × Cursor)
  | 0, _ => none
  | fuel + 1, cursor =>
    if cursor.isAtMark then none
    else match cursor.rest with
      | [] => none
      | c :: rest =>
        if isBlank c || isBreak c then
          (Gap.take 0 (fuel + 1) .empty cursor).bind fun (gap, cursor) =>
            (takeQuoted quotes fuel cursor).map (before gap.text)
        else if c = quotes.mark then
          if quotes = .single ∧ rest.head? = some c then
            (takeQuoted quotes fuel (cursor.advance 2)).map (before [c])
          else some ([], cursor.next)
        else if quotes = .double ∧ c = '\\' then
          if rest.head?.any isBreak then
            (Gap.take 0 fuel .empty cursor.next.next).bind fun (gap, cursor) =>
              (takeQuoted quotes fuel cursor).map (before gap.breaks)
          else
            (escaped? rest).bind fun (meant, length) =>
              (takeQuoted quotes fuel (cursor.advance (length + 1))).map (before [meant])
        else (takeQuoted quotes fuel cursor.next).map (before [c])

end Switchboard.Yaml
