import Switchboard.Text.Quoted

/-!
# Texts and comments of TOML

Lines end with a line feed, which is all that `prepared` leaves of the two
characters that may end them. Texts in three quotes may extend over several
lines: a line end right after the quotes is not part of the text, up to two
quotes may stand before the closing ones, and in double quotes a backslash at
the end of a line joins it with what follows.
-/
namespace Switchboard.Toml

/-- Line feeds in place of carriage returns with line feeds. -/
def withoutReturns : List Char → List Char
  | '\r' :: '\n' :: rest => '\n' :: withoutReturns rest
  | c :: rest => c :: withoutReturns rest
  | [] => []

/-- A text without the mark at its beginning and with one character for each line end. -/
def prepared (text : String) : List Char := withoutReturns (Text.dropMark text.toList)

def isBlank (c : Char) : Bool := c == ' ' || c == '\t'

def skip (text : List Char) : List Char := text.dropWhile isBlank

/-- What follows a comment: a line end or nothing. -/
def afterComment (text : List Char) : Option (List Char) :=
  match text.dropWhile Text.isPrintable with
  | [] => some []
  | '\n' :: rest => some ('\n' :: rest)
  | _ => none

/-- The text after blanks, line ends and comments. -/
def skipFiller : Nat → List Char → Option (List Char)
  | 0, _ => none
  | fuel + 1, text =>
    match skip text with
    | '\n' :: rest => skipFiller fuel rest
    | '#' :: rest =>
      match afterComment rest with
      | none => none
      | some rest => skipFiller fuel rest
    | rest => some rest

/-! ### Texts on one line -/

/-- A text in single quotes, in which nothing is escaped, and what follows it. -/
def takeLiteral (text : List Char) : Option (String × List Char) :=
  match text.dropWhile fun c => c ≠ '\'' ∧ Text.isPrintable c with
  | '\'' :: after => some (String.ofList (text.takeWhile (· ≠ '\'')), after)
  | _ => none

/-! ### Texts over several lines -/

/-- Up to two quotes that stand at the head of a text, and what follows them. -/
def takeSpare (quote : Char) : List Char → List Char × List Char
  | c :: d :: rest =>
    if c = quote ∧ d = quote then ([c, d], rest)
    else if c = quote then ([c], d :: rest)
    else ([], c :: d :: rest)
  | [c] => if c = quote then ([c], []) else ([], [c])
  | [] => ([], [])

/-- Cuts a text at three quotes. Where escapes count, a quote after a backslash is none. -/
def cutAtQuotes (quote : Char) (escapes : Bool) : List Char → Option (List Char × List Char)
  | c :: d :: e :: rest =>
    if c = quote ∧ d = quote ∧ e = quote then some (takeSpare quote rest)
    else if escapes ∧ c = '\\' then
      (cutAtQuotes quote escapes (e :: rest)).map fun (inside, after) => (c :: d :: inside, after)
    else
      (cutAtQuotes quote escapes (d :: e :: rest)).map fun (inside, after) => (c :: inside, after)
  | _ => none

/-- A text without the line end at its beginning. -/
def dropLineEnd : List Char → List Char
  | '\n' :: rest => rest
  | text => text

/-- Whether nothing but blanks stands before the end of a line. -/
def endsLine (text : List Char) : Bool := (skip text).head? == some '\n'

/-- Joins lines that end with a backslash; `joining` while blanks and line ends are left out. -/
def joined (joining : Bool) : List Char → List Char
  | [] => []
  | ['\\'] => ['\\']
  | '\\' :: c :: rest =>
    if endsLine (c :: rest) then joined true (c :: rest) else '\\' :: c :: joined false rest
  | c :: rest =>
    if joining && (isBlank c || c == '\n') then joined true rest else c :: joined false rest

/-- The rules for text over several lines. -/
def lineQuoting : Text.Quoting :=
  { Text.plainQuoting with plain := fun c => c == '\n' || Text.isPrintable c }

/-- The text in three double quotes at the head of a text that begins after the opening ones. -/
def takeLines (text : List Char) : Option (String × List Char) :=
  match cutAtQuotes '"' true text with
  | none => none
  | some (inside, after) =>
    (lineQuoting.read .text (joined false (dropLineEnd inside))).map fun meant =>
      (String.ofList meant, after)

/-- The text in three single quotes at the head of a text that begins after the opening ones. -/
def takeLiteralLines (text : List Char) : Option (String × List Char) :=
  match cutAtQuotes '\'' false text with
  | none => none
  | some (inside, after) =>
    if inside.all lineQuoting.plain then some (String.ofList (dropLineEnd inside), after)
    else none

end Switchboard.Toml
