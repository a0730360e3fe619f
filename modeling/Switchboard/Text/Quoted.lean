import Switchboard.Json.Token

/-!
# Quoted text with escapes

Formats differ in which letters may follow a backslash and in which characters
may stand in quotes as they are; they agree on how the two work together. A
letter stands for one character or announces a number of hexadecimal digits.
-/
namespace Switchboard.Text

/-- What a backslash and a letter begin. -/
inductive Escape where
  | char (c : Char)
  | code (digits : Nat)
  deriving DecidableEq

/-- The rules of a format for quoted text. -/
structure Quoting where
  escape? : Char → Option Escape
  /-- The characters that stand for themselves. -/
  plain : Char → Bool

/-- What the next character of quoted text belongs to. -/
inductive Awaiting where
  | text
  | letter
  | digits (more : Nat) (value : Nat)

namespace Quoting

/-- The text that stands between quotes, with its escapes replaced by what they stand for. -/
def read (quoting : Quoting) : Awaiting → List Char → Option (List Char)
  | .text, [] => some []
  | _, [] => none
  | .text, c :: rest =>
    if c = '\\' then read quoting .letter rest
    else if quoting.plain c then (read quoting .text rest).map (c :: ·)
    else none
  | .letter, c :: rest =>
    match quoting.escape? c with
    | some (.char meant) => (read quoting .text rest).map (meant :: ·)
    | some (.code digits) => read quoting (.digits digits 0) rest
    | none => none
  | .digits more value, c :: rest =>
    match Json.hexDigit? c with
    | none => none
    | some digit =>
      let value := 16 * value + digit
      if 1 < more then read quoting (.digits (more - 1) value) rest
      else if value.isValidChar then
        (read quoting .text rest).map (Char.ofNat value :: ·)
      else none

end Quoting

/-- Cuts a text at the first double quote that no backslash stands before. -/
def cutAtQuote : List Char → Option (List Char × List Char)
  | [] => none
  | '"' :: rest => some ([], rest)
  | '\\' :: c :: rest =>
    (cutAtQuote rest).map fun (inside, after) => ('\\' :: c :: inside, after)
  | c :: rest => (cutAtQuote rest).map fun (inside, after) => (c :: inside, after)

/-- The text in quotes at the head of a text that begins after the opening quote. -/
def Quoting.string? (quoting : Quoting) (text : List Char) : Option (String × List Char) :=
  match cutAtQuote text with
  | none => none
  | some (inside, after) =>
    (quoting.read .text inside).map fun meant => (String.ofList meant, after)

/-- A character that may stand in quoted text as it is; of the control characters only the tab. -/
def isPrintable (c : Char) : Bool := c == '\t' || (0x20 ≤ c.toNat && c.toNat != 0x7F)

/-- The rules that settings in environment variables and in TOML files share. -/
def plainQuoting : Quoting where
  escape?
    | '"' => some (.char '"')
    | '\\' => some (.char '\\')
    | 'b' => some (.char (Char.ofNat 8))
    | 't' => some (.char '\t')
    | 'n' => some (.char '\n')
    | 'f' => some (.char (Char.ofNat 12))
    | 'r' => some (.char '\r')
    | 'u' => some (.code 4)
    | 'U' => some (.code 8)
    | _ => none
  plain := isPrintable

/-- The character that may mark the beginning of a file. -/
def byteOrderMark : Char := Char.ofNat 0xFEFF

/-- A text without the mark at its beginning. -/
def dropMark : List Char → List Char
  | c :: rest => if c = byteOrderMark then rest else c :: rest
  | [] => []

end Switchboard.Text
