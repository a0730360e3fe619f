import Switchboard.Pattern.Basic
import Switchboard.Pattern.Escape

/-!
# Sets of characters in patterns

A set in brackets holds characters, ranges, classes and further sets, and signs
that are written twice combine what stands on their two sides. A closing
bracket at the beginning and hyphens at the beginning or the end are characters
of the set. A caret at the beginning asks for all other characters, of which
there are too many outside of Unicode.
-/
namespace Switchboard.Pattern

/-- The classes that have names. -/
def classNames : List String :=
  ["alnum", "alpha", "ascii", "blank", "cntrl", "digit", "graph", "lower", "print", "punct",
    "space", "upper", "word", "xdigit"]

/-- The named class after an opening bracket: whether it is negated, and what follows it. -/
def takeNamedClass : List Char → Option (Bool × List Char)
  | ':' :: rest =>
    let negated := rest.head? == some '^'
    let rest := if negated then rest.tail else rest
    let name := rest.takeWhile (· ≠ ':')
    match rest.drop name.length with
    | ':' :: ']' :: after =>
      if classNames.contains (String.ofList name) then some (negated, after) else none
    | _ => none
  | _ => none

/-- The character or escape at the head of a text. -/
def takeAtom (mode : Mode) : List Char → Option (Atom × List Char)
  | [] => none
  | '\\' :: rest => takeEscape mode rest
  | c :: rest => some (.char c, rest)

/-- Whether a character may be part of a set. -/
def admitsChar (mode : Mode) (c : Char) : Bool := mode.unicode || decide (c.toNat < asciiLimit)

/-- Whether something may be part of a set by itself. -/
def isMember (mode : Mode) : Atom → Bool
  | .char c => admitsChar mode c
  | .kind => true
  | .place _ => false

/-- Whether there is a range from one thing to another. -/
def isRange (mode : Mode) : Atom → Atom → Bool
  | .char first, .char last => admitsChar mode first && admitsChar mode last && first ≤ last
  | _, _ => false

/-- What follows the member or range at the head of a text. -/
def afterRange (mode : Mode) (text : List Char) : Option (List Char) := do
  let (first, rest) ← takeAtom mode text
  let single := if isMember mode first then some rest else none
  match mode.skip rest with
  | '-' :: more =>
    if mode.peek? more = some ']' ∨ mode.peek? more = some '-' then single
    else
      let (last, after) ← takeAtom mode (mode.skip more)
      if isRange mode first last then some after else none
  | _ => single

/-- How much of a set has been read. -/
inductive SetStage where
  | nothing
  /-- Only hyphens that stand at the beginning. -/
  | hyphens
  | more
  deriving Repr, DecidableEq

/-- What has been read of a set. -/
structure SetReader where
  stage : SetStage
  /-- What stands before the last operator. -/
  left : Option CharSet
  /-- The parts after it, the latest first. -/
  parts : List CharSet

namespace SetReader

def start : SetReader := ⟨.nothing, none, []⟩

def add (part : CharSet) (r : SetReader) : SetReader :=
  { r with stage := .more, parts := part :: r.parts }

def addHyphen (r : SetReader) : SetReader :=
  { r with stage := .hyphens, parts := .simple :: r.parts }

/-- The set that has been read. -/
def content (r : SetReader) : CharSet :=
  let right := CharSet.ofParts r.parts.reverse
  match r.left with
  | some left => .combined left right
  | none => right

/-- Goes on after an operator. -/
def combine (r : SetReader) : SetReader := ⟨.more, some r.content, []⟩

end SetReader

/-- The signs that combine sets when they are written twice. -/
def isCombining (c : Char) : Bool := c == '&' || c == '-' || c == '~'

mutual

/-- The set after its opening bracket, and what follows it. -/
def takeSet (mode : Mode) : Nat → List Char → Option (CharSet × List Char)
  | 0, _ => none
  | fuel + 1, text =>
    match mode.skip text with
    | '^' :: rest => if mode.unicode then takeMembers mode fuel .start rest else none
    | rest => takeMembers mode fuel .start rest

/-- What is still to be read of a set, up to its closing bracket. -/
def takeMembers (mode : Mode) : Nat → SetReader → List Char → Option (CharSet × List Char)
  | 0, _, _ => none
  | fuel + 1, r, text =>
    match mode.skip text with
    | [] => none
    | c :: rest =>
      if c = '-' ∧ r.stage ≠ .more then takeMembers mode fuel r.addHyphen rest
      else if c = ']' then
        if r.stage = .nothing then takeMembers mode fuel (r.add .simple) rest
        else some (r.content, rest)
      else if c = '[' then
        match takeNamedClass rest with
        | some (negated, after) =>
          if negated && !mode.unicode then none else takeMembers mode fuel (r.add .simple) after
        | none =>
          (takeSet mode fuel rest).bind fun (content, after) =>
            takeMembers mode fuel (r.add (.bracketed content)) after
      else if isCombining c ∧ rest.head? = some c then
        takeMembers mode fuel r.combine rest.tail
      else
        (afterRange mode (c :: rest)).bind fun after => takeMembers mode fuel (r.add .simple) after

end

end Switchboard.Pattern
