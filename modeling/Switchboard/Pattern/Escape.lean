import Switchboard.Json.Token
import Switchboard.Text.Blank

/-!
# Modes and escapes of patterns

A pattern is read in a mode, which may change on the way. In a spaced pattern
blanks and comments between its parts do not count. Outside of Unicode a
pattern must not match single bytes of longer characters.

A backslash takes the meaning from a punctuation mark or gives one to a letter:
a control character, a code point, a class of characters or a condition on the
place.
-/
namespace Switchboard.Pattern

structure Mode where
  spaced : Bool
  unicode : Bool
  deriving Repr, DecidableEq

/-- The rest of a text after blanks and comments. -/
def afterGap (inComment : Bool) : List Char → List Char
  | [] => []
  | c :: rest =>
    if inComment then afterGap (c ≠ '\n') rest
    else if c = '#' then afterGap true rest
    else if Text.isBlank c then afterGap false rest
    else c :: rest

namespace Mode

def initial : Mode := ⟨false, true⟩

/-- The rest of a text after what does not count. -/
def skip (mode : Mode) (text : List Char) : List Char :=
  if mode.spaced then afterGap false text else text

/-- The next character that counts, where nothing of a comment but its sign is looked past. -/
def peek? (mode : Mode) (text : List Char) : Option Char :=
  if mode.spaced then
    match text.dropWhile Text.isBlank with
    | '#' :: rest => (rest.dropWhile Text.isBlank).head?
    | rest => rest.head?
  else text.head?

end Mode

/-- What a character or an escape stands for. -/
inductive Atom where
  | char (c : Char)
  /-- One of a class of characters. -/
  | kind
  /-- A condition on the place; `wordy` where it is about words of any script. -/
  | place (wordy : Bool)
  deriving Repr, DecidableEq

/-- The first code point that takes more than one byte. -/
def asciiLimit : Nat := 0x80

/-- The punctuation marks and control characters that stand for themselves after a backslash. -/
def isPlainMark (c : Char) : Bool :=
  c.toNat < asciiLimit && !c.isAlphanum && c != '<' && c != '>'

/-- The control character that a letter stands for. -/
def controlOf? : Char → Option Char
  | 'a' => some (Char.ofNat 7)
  | 'f' => some (Char.ofNat 12)
  | 'n' => some '\n'
  | 'r' => some '\r'
  | 't' => some '\t'
  | 'v' => some (Char.ofNat 11)
  | _ => none

/-- The number that a row of hexadecimal digits denotes, and what follows them. -/
def takeDigits (mode : Mode) : Nat → Nat → List Char → Option (Nat × List Char)
  | 0, value, text => some (value, text)
  | count + 1, value, text =>
    match mode.skip text with
    | [] => none
    | c :: rest =>
      (Json.hexDigit? c).bind fun digit => takeDigits mode count (16 * value + digit) rest

/-- The character with a code of so many digits. Two digits denote a byte outside of Unicode. -/
def takeCode (mode : Mode) (count : Nat) (text : List Char) : Option (Atom × List Char) :=
  (takeDigits mode count 0 text).bind fun (code, rest) =>
    if !code.isValidChar then none
    else if !mode.unicode && count = 2 && asciiLimit ≤ code then none
    else some (.char (Char.ofNat code), rest)

/-- The letters of the general categories. -/
def categories : List Char := "CLMNPSZ".toList

/-- The class of a general category. -/
def takeCategory (mode : Mode) (text : List Char) : Option (Atom × List Char) :=
  match mode.skip text with
  | [] => none
  | c :: rest =>
    if mode.unicode && categories.contains c.toUpper then some (.kind, rest) else none

/-- What the text after a backslash stands for, and what follows it. -/
def takeEscape (mode : Mode) : List Char → Option (Atom × List Char)
  | [] => none
  | c :: rest =>
    if isPlainMark c then some (.char c, rest)
    else if c = 'x' then takeCode mode 2 rest
    else if c = 'u' then takeCode mode 4 rest
    else if c = 'U' then takeCode mode 8 rest
    else if c = 'p' ∨ c = 'P' then takeCategory mode rest
    else if "dsw".toList.contains c then some (.kind, rest)
    else if "DSW".toList.contains c then if mode.unicode then some (.kind, rest) else none
    else if c = 'A' ∨ c = 'z' then some (.place false, rest)
    else if "bB<>".toList.contains c then some (.place mode.unicode, rest)
    else (controlOf? c).map fun control => (.char control, rest)

end Switchboard.Pattern
