import Switchboard.Number.Numeral
import Switchboard.Toml.Table
import Switchboard.Toml.Text

/-!
# Values of TOML

Texts, whole numbers of 64 bits, numbers with a fraction or exponent, truth
values, dates and times, lists over several lines and tables on one line.
Dates and times are tables, so that nothing can be set to one.
-/
namespace Switchboard.Toml

/-- Lists and tables are nested less deep than this, and keys have fewer parts. -/
def depthLimit : Nat := 80

/-! ### Keys -/

def isBare (c : Char) : Bool := c.isAlphanum || c == '_' || c == '-'

/-- One part of a key. -/
def takePart : List Char → Option (String × List Char)
  | '"' :: rest => Text.plainQuoting.string? rest
  | '\'' :: rest => takeLiteral rest
  | text =>
    match text.takeWhile isBare with
    | [] => none
    | part => some (String.ofList part, text.dropWhile isBare)

/-- The parts of a key, which points join, and what follows after blanks. -/
def takeParts : Nat → List Char → Option (List String × List Char)
  | 0, _ => none
  | fuel + 1, text =>
    match takePart (skip text) with
    | none => none
    | some (part, rest) =>
      match skip rest with
      | '.' :: rest => (takeParts fuel rest).map fun (parts, rest) => (part :: parts, rest)
      | rest => some ([part], rest)

/-- A key and what follows it after blanks. -/
def takeKey (text : List Char) : Option (List String × List Char) :=
  (takeParts (text.length + 1) text).filter (·.1.length < depthLimit)

/-! ### Numbers -/

/-- Digits without the underscores between them; nothing if an underscore stands elsewhere. -/
def joinedDigits? (isDigit : Char → Bool) : List Char → Option (List Char)
  | c :: '_' :: d :: rest =>
    if isDigit c ∧ isDigit d then (joinedDigits? isDigit (d :: rest)).map (c :: ·) else none
  | c :: rest => if c = '_' then none else (joinedDigits? isDigit rest).map (c :: ·)
  | [] => some []

def digitsTo? (base : Nat) (digits : List Char) : Option Int :=
  match digits.mapM Json.hexDigit? with
  | some (first :: rest) =>
    if (first :: rest).all (· < base) then
      some ((first :: rest).foldl (fun n digit => base * n + digit) 0 : Nat)
    else none
  | _ => none

/-- A row of digits that does not begin with a needless zero. -/
def isWhole : List Char → Bool
  | [] => false
  | '0' :: rest => rest.isEmpty
  | digits => digits.all Char.isDigit

/-- A text without the sign at its head. -/
def unsigned : List Char → List Char
  | '+' :: rest => rest
  | '-' :: rest => rest
  | text => text

def isSigned64 (n : Int) : Bool := -(signedLimit : Int) ≤ n && n < signedLimit

/-- A whole number to another base than ten. -/
def based (base : Nat) (digits : List Char) : Option Int :=
  (joinedDigits? (fun c => (Json.hexDigit? c).isSome) digits).bind (digitsTo? base)

/-- A whole number to base ten. -/
def decimal? (word : List Char) : Option Int :=
  if isWhole (unsigned word) then
    (digitsTo? 10 (unsigned word)).map fun n => if word.head? = some '-' then -n else n
  else none

/-- A number with a fraction or an exponent; a point has digits on either side. -/
def isFraction (word : List Char) : Bool :=
  let body := unsigned word
  let complete := match body.dropWhile Char.isDigit with
    | [] => false
    | '.' :: rest => rest.head?.any Char.isDigit
    | _ => true
  match Numeral.ofText? word with
  | none => false
  | some numeral =>
    -- below the least number there is still one without bound
    isWhole (body.takeWhile Char.isDigit) && complete &&
      (numeral.nearest?.isSome || word.head? == some '-')

/-- Numbers that are none of the finite ones. -/
def unboundedWords : List (List Char) :=
  ["inf", "nan"].map String.toList

/-- The value of a word that is a number. -/
def number? (word : List Char) : Option Setting :=
  match word with
  | '0' :: 'x' :: digits => ((based 16 digits).filter isSigned64).map .int
  | '0' :: 'o' :: digits => ((based 8 digits).filter isSigned64).map .int
  | '0' :: 'b' :: digits => ((based 2 digits).filter isSigned64).map .int
  | _ =>
    match joinedDigits? Char.isDigit word with
    | none => none
    | some word =>
      match decimal? word with
      | some n => if isSigned64 n then some (.int n) else none
      | none => if isFraction word then some .fraction else none

/-! ### Dates and times -/

/-- A number of exactly so many digits within bounds, and what follows it. -/
def takeDigits (count least greatest : Nat) (text : List Char) : Option (Nat × List Char) :=
  let digits := text.take count
  let n := ofDigits (digits.map digitOf)
  if digits.length = count ∧ digits.all Char.isDigit ∧ least ≤ n ∧ n ≤ greatest then
    some (n, text.drop count)
  else none

/-- The text after a given character. -/
def after? (c : Char) : List Char → Option (List Char)
  | d :: rest => if c = d then some rest else none
  | [] => none

def isLeapYear (year : Nat) : Bool := year % 4 == 0 && (year % 100 != 0 || year % 400 == 0)

def daysOf (year month : Nat) : Nat :=
  if month = 2 then if isLeapYear year then 29 else 28
  else if month ∈ [4, 6, 9, 11] then 30
  else 31

/-- What follows a date. -/
def afterDate? (text : List Char) : Option (List Char) := do
  let (year, rest) ← takeDigits 4 0 9999 text
  let (month, rest) ← takeDigits 2 1 12 (← after? '-' rest)
  let (_, rest) ← takeDigits 2 1 (daysOf year month) (← after? '-' rest)
  return rest

/-- What follows a time of the day. -/
def afterTime? (text : List Char) : Option (List Char) := do
  let (_, rest) ← takeDigits 2 0 23 text
  let (_, rest) ← takeDigits 2 0 59 (← after? ':' rest)
  let (_, rest) ← takeDigits 2 0 60 (← after? ':' rest)
  match rest with
  | '.' :: digit :: rest =>
    if digit.isDigit then some (rest.dropWhile Char.isDigit) else none
  | rest => some rest

/-- Whether a text is nothing or the distance of a time from the common one. -/
def isOffset : List Char → Bool
  | [] => true
  | ['Z'] => true
  | ['z'] => true
  | sign :: rest =>
    (sign == '+' || sign == '-') &&
      (do
        let (_, rest) ← takeDigits 2 0 23 rest
        let (_, rest) ← takeDigits 2 0 59 (← after? ':' rest)
        return rest.isEmpty).getD false

def isDate (word : List Char) : Bool := afterDate? word == some []

/-- Whether a word is a date, a time, or both with a letter between them. -/
def isMoment (word : List Char) : Bool :=
  match afterDate? word with
  | some [] => true
  | some (c :: rest) => (c == 'T' || c == 't') && (afterTime? rest).any isOffset
  | none => afterTime? word == some []

/-- A date or a time as a setting. -/
def moment (word : List Char) : Setting := .table [("moment", .text (String.ofList word))]

/-- The value of a word. -/
def ofWord? (word : List Char) : Option Setting :=
  if word = "true".toList then some (.bool true)
  else if word = "false".toList then some (.bool false)
  else if unsigned word ∈ unboundedWords then some .fraction
  else if isMoment word then some (moment word)
  else number? word

def isWordChar (c : Char) : Bool := isBare c || c == '+' || c == '.' || c == ':'

/-- A value that is a word. A blank may stand between a date and a time. -/
def takeWord (text : List Char) : Option (Setting × List Char) :=
  let word := text.takeWhile isWordChar
  let rest := text.drop word.length
  match isDate word, rest with
  | true, ' ' :: digit :: more =>
    if digit.isDigit then
      let time := (digit :: more).takeWhile isWordChar
      if (afterTime? time).any isOffset then
        some (moment (word ++ ' ' :: time), (digit :: more).drop time.length)
      else none
    else some (moment word, rest)
  | _, _ => (ofWord? word).map (·, rest)

/-! ### Values -/

mutual

/-- The value at the head of a text, and what follows it; `depth` tells how deep it may go. -/
def takeValue : Nat → Nat → List Char → Option (Setting × List Char)
  | 0, _, _ => none
  | fuel + 1, depth, text =>
    match text with
    | '"' :: '"' :: '"' :: rest => (takeLines rest).map fun (text, rest) => (.text text, rest)
    | '\'' :: '\'' :: '\'' :: rest =>
      (takeLiteralLines rest).map fun (text, rest) => (.text text, rest)
    | '"' :: rest => (Text.plainQuoting.string? rest).map fun (text, rest) => (.text text, rest)
    | '\'' :: rest => (takeLiteral rest).map fun (text, rest) => (.text text, rest)
    | '[' :: rest =>
      if depth = 0 then none
      else (takeItems fuel (depth - 1) rest).map fun (items, rest) => (.list items, rest)
    | '\x7b' :: rest =>
      if depth = 0 then none
      else match skip rest with
        | '\x7d' :: rest => some (.table [], rest)
        | rest =>
          (takeMembers fuel (depth - 1) [] rest).map fun (members, rest) =>
            (.table (settings members), rest)
    | text => takeWord text

/-- The items of a list up to its bracket; a comma may stand after the last one. -/
def takeItems : Nat → Nat → List Char → Option (List Setting × List Char)
  | 0, _, _ => none
  | fuel + 1, depth, text =>
    match skipFiller (text.length + 1) text with
    | none => none
    | some (']' :: rest) => some ([], rest)
    | some text =>
      match takeValue fuel depth text with
      | none => none
      | some (item, rest) =>
        match skipFiller (rest.length + 1) rest with
        | some (',' :: rest) =>
          (takeItems fuel depth rest).map fun (items, rest) => (item :: items, rest)
        | some (']' :: rest) => some ([item], rest)
        | _ => none

/-- Adds the members up to the brace of a table to those that it has already. -/
def takeMembers : Nat → Nat → Members → List Char → Option (Members × List Char)
  | 0, _, _, _ => none
  | fuel + 1, depth, members, text =>
    match takeKey text with
    | some (key, '=' :: rest) =>
      match takeValue fuel depth (skip rest) with
      | none => none
      | some (setting, rest) =>
        match assign key setting members, skip rest with
        | some members, ',' :: rest => takeMembers fuel depth members rest
        | some members, '\x7d' :: rest => some (members, rest)
        | _, _ => none
    | _ => none

end

end Switchboard.Toml
