import Switchboard.Config.Setting
import Switchboard.Text.Bytes
import Switchboard.Text.Pieces
import Switchboard.Text.Quoted

/-!
# Settings in environment variables

A variable whose name begins with `LOGICSRV_` is a setting. The rest of its
name is lower-cased, and two underscores lead from an object to a member. Its
value is a truth value, a number, a text in quotes, a list in brackets or an
object in braces; a character in single quotes is a character. Whatever does
not read as one of these is a text as it stands.

Of quoted text as many bytes are kept before its first escape as there are
characters, which is less than all where characters are longer than a byte. If
those bytes end inside a character, the environment cannot be read at all.
-/
namespace Switchboard

structure Variable where
  name : String
  value : String
  deriving Repr, DecidableEq

namespace Variable

/-- A variable as an environment lists it. -/
def ofText? (text : List Char) : Option Variable :=
  match text.dropWhile (· ≠ '=') with
  | [] => none
  | _ :: value => some ⟨String.ofList (text.takeWhile (· ≠ '=')), String.ofList value⟩

/-- The variables of an environment, which zero bytes end. -/
def ofBytes (bytes : List UInt8) : List Variable :=
  (Text.pieces (· == 0) bytes).filterMap fun entry =>
    (String.fromUTF8? ⟨entry.toArray⟩).bind fun text => ofText? text.toList

/-! ### Values -/

/-- The blanks between the parts of a value. -/
def isSpace (c : Char) : Bool :=
  c == ' ' || c == '\t' || c == '\n' || c == '\r' || c.toNat == 12

/-- The characters that end a word. -/
def isSeparator (c : Char) : Bool :=
  c == ',' || c == '[' || c == ']' || c == '\x7b' || c == '\x7d'

def isNameChar (c : Char) : Bool := c.isAlphanum || c == '_' || c == '-'

def skip (text : List Char) : List Char := text.dropWhile isSpace

/-- A whole number with an optional sign. -/
def wholeNumber? (word : List Char) : Option Int :=
  match Numeral.ofText? word with
  | some ⟨negative, whole, [], 0⟩ =>
    if word.all fun c => c.isDigit || c == '+' || c == '-' then
      some (if negative then -(ofDigits whole : Int) else ofDigits whole)
    else none
  | _ => none

/-- The value of a word. Only a word with a point can be a number with a fraction. -/
def ofWord (word : List Char) : Setting :=
  if word.contains '.' && (Numeral.ofText? word).isSome then .fraction
  else match wholeNumber? word with
    | some n => if Setting.isWord n then .int n else .text (String.ofList word)
    | none => .text (String.ofList word)

/-- Why a text does not read as a value. -/
inductive Misfit where
  /-- It is written like none and stands for itself. -/
  | noValue
  /-- What is kept of a quoted text would end inside a character. -/
  | split (cut : Text.SplitChar)

/-- What is kept of the characters before the first escape of a quoted text. -/
def keptOf (before : List Char) : Except Misfit (List Char) :=
  match Text.cutAtByte before.length before with
  | .ok (kept, _) => .ok kept
  | .error cut => .error (.split cut)

/-- The meaning of what stands between quotes. -/
def ofQuoted (inside : List Char) : Except Misfit String :=
  let before := inside.takeWhile (· ≠ '\\')
  if !before.all Text.plainQuoting.plain then .error .noValue
  else match inside.drop before.length with
    | [] => .ok (String.ofList before)
    | escaped => do
      let kept ← keptOf before
      match Text.plainQuoting.read .text escaped with
      | some meant => return String.ofList (kept ++ meant)
      | none => throw .noValue

/-- The meaning of quoted text after its opening quote, and what follows the closing one. -/
def takeQuoted (text : List Char) : Except Misfit (String × List Char) :=
  match Text.cutAtQuote text with
  | none => .error .noValue
  | some (inside, after) => (ofQuoted inside).map (·, after)

/-- The name of a member, in quotes or as a word. -/
def takeName : List Char → Except Misfit (String × List Char)
  | '"' :: rest => takeQuoted rest
  | text =>
    match text.takeWhile isNameChar with
    | [] => .error .noValue
    | name => .ok (String.ofList name, text.dropWhile isNameChar)

mutual

/-- The value at the head of a text, and what follows it after blanks. -/
def takeValue : Nat → List Char → Except Misfit (Setting × List Char)
  | 0, _ => .error .noValue
  | fuel + 1, text =>
    match skip text with
    | 't' :: 'r' :: 'u' :: 'e' :: rest => .ok (.bool true, skip rest)
    | 'f' :: 'a' :: 'l' :: 's' :: 'e' :: rest => .ok (.bool false, skip rest)
    | '\x7b' :: rest =>
      (takeMembers fuel rest).map fun (members, rest) => (Setting.ofMembers members, skip rest)
    | '[' :: rest => (takeItems fuel rest).map fun (items, rest) => (.list items, skip rest)
    | '"' :: rest => (takeQuoted rest).map fun (text, rest) => (.text text, skip rest)
    | '\'' :: c :: '\'' :: rest => .ok (.char c, skip rest)
    | '\'' :: _ => .error .noValue
    | text =>
      .ok (ofWord (Text.trim (text.takeWhile (!isSeparator ·))), text.dropWhile (!isSeparator ·))

/-- The items of a list up to its bracket; a comma may stand after the last one. -/
def takeItems : Nat → List Char → Except Misfit (List Setting × List Char)
  | 0, _ => .error .noValue
  | _ + 1, ']' :: rest => .ok ([], rest)
  | fuel + 1, text => do
    match ← takeValue fuel text with
    | (item, ',' :: rest) =>
      (takeItems fuel rest).map fun (items, rest) => (item :: items, rest)
    | (item, ']' :: rest) => return ([item], rest)
    | _ => throw .noValue

/-- The members of an object up to its brace; a comma may stand after the last one. -/
def takeMembers : Nat → List Char → Except Misfit (List (String × Setting) × List Char)
  | 0, _ => .error .noValue
  | _ + 1, '\x7d' :: rest => .ok ([], rest)
  | fuel + 1, text => do
    let (name, rest) ← takeName (skip text)
    match skip rest with
    | '=' :: rest =>
      match ← takeValue fuel rest with
      | (value, ',' :: rest) =>
        (takeMembers fuel rest).map fun (members, rest) => ((name, value) :: members, rest)
      | (value, '\x7d' :: rest) => return ([(name, value)], rest)
      | _ => throw .noValue
    | _ => throw .noValue

end

/-- The value that a text stands for; a text that is nothing else stands for itself. -/
def valueOf (text : String) : Except Text.SplitChar Setting :=
  match takeValue (2 * text.length + 2) text.toList with
  | .ok (value, []) => .ok value
  | .error (.split cut) => .error cut
  | .ok _ | .error .noValue => .ok (.text text)

/-! ### Names -/

def namePrefix : String := "LOGICSRV_"

/-- The rest of a text after a beginning, which is compared without regard to case. -/
def after? : List Char → List Char → Option (List Char)
  | [], text => some text
  | _ :: _, [] => none
  | c :: start, d :: text => if c.toLower = d.toLower then after? start text else none

/-- Points in place of pairs of underscores. -/
def pointed : List Char → List Char
  | '_' :: '_' :: rest => '.' :: pointed rest
  | c :: rest => c :: pointed rest
  | [] => []

/-- The member names that a variable leads through. A name with an empty part leads nowhere. -/
def path? (name : String) : Option (List String) :=
  match after? namePrefix.toList (Text.trim name.toList) with
  | none => none
  | some rest =>
    let parts := Text.pieces (· == '.') ((Text.trim (pointed rest)).map Char.toLower)
    if parts.any (·.isEmpty) then none else some (parts.map String.ofList)

/-- The settings of an environment; later names are laid over earlier ones. -/
def settings (environment : List Variable) : Except Text.SplitChar Setting :=
  let sorted := environment.mergeSort fun a b => a.name ≤ b.name
  let placed := sorted.filterMap fun given =>
    (path? given.name).map fun path => (path, given.value)
  (placed.mapM fun (path, value) => (valueOf value).map (Setting.nested path)).map
    (List.foldl Setting.overlay (.table []))

end Variable

end Switchboard
