import Switchboard.Pattern.Set
import Switchboard.Text.Alphanumeric

/-!
# Reading patterns

A pattern is read from left to right. A sign of repetition belongs to what
stands right before it, a bar separates the branches of a choice, and groups
may have a name, which no other group has, or a mode of their own. A mode that
is set on its own lasts until the end of the group around it. Repetition a
given number of times is not provided for.
-/
namespace Switchboard.Pattern

/-- A pattern while it is read. -/
structure Reader where
  rest : List Char
  mode : Mode
  /-- The names of groups. -/
  names : List (List Char)

namespace Reader

def start (text : List Char) : Reader := ⟨text, .initial, []⟩

/-- Goes on with another text. -/
def goTo (rest : List Char) (r : Reader) : Reader := { r with rest := rest }

/-! ### Groups -/

def nameChars : List Char := "_.[]".toList

/-- The characters of the names of groups. -/
def isNameChar (c : Char) : Bool := nameChars.contains c || Text.isAlphanumeric c

/-- The name of a group up to its closing sign. -/
def takeName (r : Reader) : Option Reader :=
  let name := r.rest.takeWhile isNameChar
  match name.head?, r.rest.drop name.length with
  | some first, '>' :: rest =>
    if (first == '_' || Text.isLetter first) && !r.names.contains name then
      some { r with rest := rest, names := name :: r.names }
    else none
  | _, _ => none

def flags : List Char := "imsUuRx".toList

/-- The signs that set a mode, up to a colon or closing bracket. A hyphen clears what follows. -/
def takeFlags : List Char → List Char → Option (List Char × List Char)
  | _, [] => none
  | seen, c :: rest =>
    if c = ':' ∨ c = ')' then
      if seen.head? = some '-' then none else some (seen.reverse, c :: rest)
    else if seen.contains c || !(c == '-' || flags.contains c) then none
    else takeFlags (c :: seen) rest

/-- The mode after some signs have been applied to it. -/
def withFlags (given : List Char) (mode : Mode) : Mode :=
  let on := given.takeWhile (· ≠ '-')
  let state (flag : Char) (old : Bool) : Bool :=
    if given.contains flag then on.contains flag else old
  ⟨state 'x' mode.spaced, state 'u' mode.unicode⟩

/-! ### Parts -/

/-- The atom that a character stands for outside of brackets. -/
def takePrimitive (r : Reader) : Option (Pattern × Reader) :=
  match r.rest with
  | [] => none
  | '\\' :: rest =>
    (takeEscape r.mode rest).map fun (atom, rest) =>
      match atom with
      | .char _ | .kind => (.one, r.goTo rest)
      | .place wordy => (.place wordy, r.goTo rest)
  | '.' :: rest => if r.mode.unicode then some (.one, r.goTo rest) else none
  | c :: rest => some (if c = '^' ∨ c = '$' then .place false else .one, r.goTo rest)

/-- Goes past a sign of repetition and the question mark that may follow it. -/
def passRepetition (r : Reader) : Reader :=
  match r.rest.tail with
  | '?' :: rest => r.goTo rest
  | rest => r.goTo rest

def isRepetition (c : Char) : Bool := c == '?' || c == '*' || c == '+'

mutual

/-- The branches up to the end of a group or of the text. -/
def takeBranches : Nat → Reader → Option (List Pattern × Reader)
  | 0, _ => none
  | fuel + 1, r =>
    (takeParts fuel [] r).bind fun (parts, r) =>
      match r.rest with
      | '|' :: rest =>
        (takeBranches fuel (r.goTo rest)).map fun (branches, r) => (.ofParts parts :: branches, r)
      | _ => some ([.ofParts parts], r)

/-- The parts of a branch; `read` are those before, the latest first. -/
def takeParts : Nat → List Pattern → Reader → Option (List Pattern × Reader)
  | 0, _, _ => none
  | fuel + 1, read, r =>
    let r := r.goTo (r.mode.skip r.rest)
    match r.rest with
    | [] => some (read.reverse, r)
    | c :: rest =>
      if c = '|' ∨ c = ')' then some (read.reverse, r)
      else if c = '(' then
        (takeGroup fuel (r.goTo rest)).bind fun (part, r) => takeParts fuel (part :: read) r
      else if c = '[' then
        (takeSet r.mode fuel rest).bind fun (content, rest) =>
          takeParts fuel (.set content :: read) (r.goTo rest)
      else if isRepetition c then
        match read with
        | last :: before =>
          if last.isRepeatable then takeParts fuel (.repeated last :: before) r.passRepetition
          else none
        | [] => none
      else if c = '\x7b' then none
      else (takePrimitive r).bind fun (part, r) => takeParts fuel (part :: read) r

/-- The group after its opening bracket, or a mode that is set on its own. -/
def takeGroup : Nat → Reader → Option (Pattern × Reader)
  | 0, _ => none
  | fuel + 1, r =>
    let r := r.goTo (r.mode.skip r.rest)
    match r.rest with
    | '?' :: 'P' :: '<' :: rest | '?' :: '<' :: rest =>
      (takeName (r.goTo rest)).bind (takeBody r.mode fuel)
    | '?' :: rest =>
      match takeFlags [] rest with
      | some (given, ':' :: rest) =>
        takeBody r.mode fuel { r with rest := rest, mode := withFlags given r.mode }
      | some (given, _ :: rest) =>
        if given.isEmpty then none
        else some (.setting, { r with rest := rest, mode := withFlags given r.mode })
      | _ => none
    | _ => takeBody r.mode fuel r

/-- The body of a group up to its closing bracket, after which the mode is as it was before. -/
def takeBody (mode : Mode) : Nat → Reader → Option (Pattern × Reader)
  | 0, _ => none
  | fuel + 1, r =>
    (takeBranches fuel r).bind fun (branches, r) =>
      match r.rest with
      | ')' :: rest => some (.group (.ofBranches branches), { r with rest := rest, mode := mode })
      | _ => none

end

end Reader

/-- The greatest depth of a pattern. -/
def depthLimit : Nat := 250

/-- The pattern that a text is. -/
def ofText? (text : List Char) : Option Pattern :=
  match (Reader.start text).takeBranches (4 * text.length + 4) with
  | some (branches, r) =>
    if r.rest.isEmpty then (some (ofBranches branches)).filter (·.depth ≤ depthLimit) else none
  | none => none

end Switchboard.Pattern
