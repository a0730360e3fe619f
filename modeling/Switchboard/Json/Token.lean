import Switchboard.Number.Numeral

/-!
# Tokens of JSON text

The text is cut into tokens up to the first place where it stops being JSON;
that place is a token of its own, so that what comes before it can still be
judged. A numeral too large for a number, and a string with half of a
surrogate pair, are tokens that denote nothing.
-/
namespace Switchboard.Json

/-- A number as JSON text distinguishes them. -/
inductive Number where
  | int (value : Int)
  | float (value : Binary64)
  deriving DecidableEq

inductive Token where
  | openArray
  | closeArray
  | openObject
  | closeObject
  | colon
  | comma
  | null
  | bool (value : Bool)
  | number (value : Option Number)
  | string (text : Option String)
  | fault
  deriving DecidableEq

/-- The blanks that may stand between tokens. -/
def isSpace (c : Char) : Bool := c == ' ' || c == '\t' || c == '\n' || c == '\r'

/-- A character of a string, or one half of a surrogate pair. -/
inductive Unit16 where
  | char (c : Char)
  | half (code : Nat)
  deriving DecidableEq

def hexDigit? (c : Char) : Option Nat :=
  if '0' ≤ c ∧ c ≤ '9' then some (c.toNat - '0'.toNat)
  else if 'a' ≤ c ∧ c ≤ 'f' then some (c.toNat - 'a'.toNat + 10)
  else if 'A' ≤ c ∧ c ≤ 'F' then some (c.toNat - 'A'.toNat + 10)
  else none

/-- The unit that four hexadecimal digits denote. -/
def unitOfHex? (a b c d : Char) : Option Unit16 :=
  match hexDigit? a, hexDigit? b, hexDigit? c, hexDigit? d with
  | some a, some b, some c, some d =>
    let code := 4096 * a + 256 * b + 16 * c + d
    some (if 0xD800 ≤ code ∧ code < 0xE000 then .half code else .char (Char.ofNat code))
  | _, _, _, _ => none

/-- The character that a backslash and a letter stand for. -/
def escaped? : Char → Option Char
  | '"' => some '"'
  | '\\' => some '\\'
  | '/' => some '/'
  | 'b' => some (Char.ofNat 8)
  | 'f' => some (Char.ofNat 12)
  | 'n' => some '\n'
  | 'r' => some '\r'
  | 't' => some '\t'
  | _ => none

/-- The units of a string up to its closing quote, and the text after it. -/
def stringUnits : List Char → Option (List Unit16 × List Char)
  | [] => none
  | '"' :: rest => some ([], rest)
  | '\\' :: 'u' :: a :: b :: c :: d :: rest =>
    match unitOfHex? a b c d with
    | none => none
    | some unit => (stringUnits rest).map fun (units, after) => (unit :: units, after)
  | '\\' :: c :: rest =>
    match escaped? c with
    | none => none
    | some c => (stringUnits rest).map fun (units, after) => (.char c :: units, after)
  | c :: rest =>
    if c.toNat < 0x20 ∨ c = '\\' then none
    else (stringUnits rest).map fun (units, after) => (.char c :: units, after)

/-- The text that units spell, if the halves of surrogate pairs stand in pairs. -/
def spell? : List Unit16 → Option (List Char)
  | [] => some []
  | .char c :: rest => (spell? rest).map (c :: ·)
  | .half high :: .half low :: rest =>
    if high < 0xDC00 ∧ 0xDC00 ≤ low then
      (spell? rest).map (Char.ofNat (0x10000 + 1024 * (high - 0xD800) + (low - 0xDC00)) :: ·)
    else none
  | .half _ :: _ => none

/--
The number that a numeral of JSON text denotes; `plain` if it has neither fraction nor exponent.
-/
def numberOf? (plain : Bool) (n : Numeral) : Option Number :=
  let magnitude := ofDigits n.whole
  if plain && magnitude ≤ maxWord then
    if !n.negative then some (.int magnitude)
    else if magnitude = 0 ∨ signedLimit < magnitude then
      some (.float (.ofRatio true magnitude 1))
    else some (.int (-magnitude))
  else n.scaled?.map .float

/-- The whole part of a numeral: a zero alone, or digits that do not begin with zero. -/
def takeWhole (text : List Char) : Option (List Nat × List Char) :=
  match takeDigits text with
  | ([], _) => none
  | (0 :: _ :: _, _) => none
  | (digits, rest) => some (digits, rest)

/-- The numeral at the head of a text, after its sign. -/
def takeNumber (negative : Bool) (text : List Char) : Option (Option Number × List Char) :=
  match takeWhole text with
  | none => none
  | some (whole, rest) =>
    let fractional : Option (List Nat × List Char) := match rest with
      | '.' :: more =>
        match takeDigits more with
        | ([], _) => none
        | part => some part
      | _ => some ([], rest)
    match fractional with
    | none => none
    | some (fraction, rest) =>
      match rest with
      | c :: more =>
        if c = 'e' ∨ c = 'E' then
          match takeExponent more with
          | none => none
          | some (exponent, rest) =>
            some (numberOf? false ⟨negative, whole, fraction, exponent⟩, rest)
        else some (numberOf? fraction.isEmpty ⟨negative, whole, fraction, 0⟩, rest)
      | [] => some (numberOf? fraction.isEmpty ⟨negative, whole, fraction, 0⟩, rest)

/-- The first token of a text that does not begin with a blank, and the text after it. -/
def takeToken : List Char → Token × List Char
  | '[' :: rest => (.openArray, rest)
  | ']' :: rest => (.closeArray, rest)
  | '\x7b' :: rest => (.openObject, rest)
  | '\x7d' :: rest => (.closeObject, rest)
  | ':' :: rest => (.colon, rest)
  | ',' :: rest => (.comma, rest)
  | 'n' :: 'u' :: 'l' :: 'l' :: rest => (.null, rest)
  | 't' :: 'r' :: 'u' :: 'e' :: rest => (.bool true, rest)
  | 'f' :: 'a' :: 'l' :: 's' :: 'e' :: rest => (.bool false, rest)
  | '"' :: rest =>
    match stringUnits rest with
    | some (units, rest) => (.string ((spell? units).map String.ofList), rest)
    | none => (.fault, [])
  | '-' :: rest =>
    match takeNumber true rest with
    | some (value, rest) => (.number value, rest)
    | none => (.fault, [])
  | text =>
    match takeNumber false text with
    | some (value, rest) => (.number value, rest)
    | none => (.fault, [])

/-- The tokens of a text. A fuel of one more than its length is enough. -/
def tokensFrom : Nat → List Char → List Token
  | 0, _ => []
  | fuel + 1, text =>
    match text.dropWhile isSpace with
    | [] => []
    | text =>
      match takeToken text with
      | (.fault, _) => [.fault]
      | (token, rest) => token :: tokensFrom fuel rest

def tokens (text : List Char) : List Token := tokensFrom (text.length + 1) text

end Switchboard.Json
