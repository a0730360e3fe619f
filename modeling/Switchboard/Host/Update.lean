import Switchboard.Json.Fields
import Switchboard.Text.Blank

/-!
# Signal updates

Updates arrive one on a line, as an object with a path and a value or as an
array of the two; the value may be missing. A line can go wrong in two ways:
it is not JSON, or it is JSON of another form. Of several faults on a line the
first one counts.
-/
namespace Switchboard

open Json

structure Update where
  path : String
  value : Json

/-- What can be wrong with a line. -/
inductive Fault where
  | malformed
  | mistyped
  deriving Repr, DecidableEq

namespace Update

/-- The fault of a document that stands where something else is expected. -/
def mismatch : Document → Fault
  | .broken | .number none | .string none => .malformed
  | _ => .mistyped

def pathOf : Document → Except Fault String
  | .string (some path) => .ok path
  | document => .error (mismatch document)

/-- The value of an update; the update itself counts as one level of nesting. -/
def valueOf (document : Document) : Except Fault Json :=
  match document.value? (depthLimit - 1) with
  | some value => .ok value
  | none => .error .malformed

/-- Reads members in their order; `path` and `value` are what has been read before. -/
def ofMembers (path : Option String) (value : Option Json) :
    List Member → Except Fault Update
  | [] =>
    match path with
    | some path => .ok ⟨path, value.getD .null⟩
    | none => .error .mistyped
  | (none, _) :: _ => .error .malformed
  | (some name, document) :: rest =>
    if name = "path" then
      match path with
      | some _ => .error .mistyped
      | none =>
        match pathOf document with
        | .ok path => ofMembers (some path) value rest
        | .error fault => .error fault
    else if name = "value" then
      match value with
      | some _ => .error .mistyped
      | none =>
        match valueOf document with
        | .ok value => ofMembers path (some value) rest
        | .error fault => .error fault
    else if document.intact then ofMembers path value rest
    else .error .malformed

/-- Reads the items of an array. -/
def ofItems : List Document → Except Fault Update
  | [] => .error .mistyped
  | [path] => (pathOf path).map (⟨·, .null⟩)
  | path :: value :: rest =>
    match pathOf path with
    | .error fault => .error fault
    | .ok path =>
      match valueOf value with
      | .error fault => .error fault
      | .ok value => if rest.isEmpty then .ok ⟨path, value⟩ else .error .malformed

def ofDocument : Document → Except Fault Update
  | .object members => ofMembers none none members
  | .array items => ofItems items
  | document => .error (mismatch document)

/-- Reads a text without blanks at its ends. -/
def ofText (text : List Char) : Except Fault Update :=
  match Document.ofText text with
  | (document, more) =>
    match ofDocument document with
    | .ok update => if more then .error .malformed else .ok update
    | .error fault => .error fault

/-- The update on a line; a blank line has none. -/
def ofLine (line : String) : Except Fault (Option Update) :=
  match Text.trim line.toList with
  | [] => .ok none
  | text => (ofText text).map some

end Update

end Switchboard
