import Switchboard.Json.Document

/-!
# Reading records

A record is written as an object, whose members may stand in any order and
among members of other names, or as an array of its fields in their order. A
field has one or several names and may be written once.
-/
namespace Switchboard.Json

/-- The fields of a record by position and names. -/
abbrev FieldNames := List (List String)

/-- What is written for each field, in the order of the fields. -/
abbrev Fields := List (Option Document)

/-- What the members of given names hold; nothing if there are several such members. -/
def fieldOf? (names : List String) (members : List Member) : Option (Option Document) :=
  match members.filter (fun member => member.1.any names.contains) with
  | [] => some none
  | [(_, value)] => some (some value)
  | _ => none

/-- Members whose names spell texts and whose values are complete. -/
def readable (members : List Member) : Bool :=
  members.all fun (name, value) => name.isSome && value.intact

/-- What an object holds for each field. -/
def fieldsOfMembers? (names : FieldNames) (members : List Member) : Option Fields :=
  if readable members then names.mapM (fieldOf? · members) else none

/-- What an array holds for each field; missing ones at the end are absent. -/
def fieldsOfItems? (names : FieldNames) (items : List Document) : Option Fields :=
  if items.length ≤ names.length ∧ items.all Document.intact then
    some (items.map some ++ List.replicate (names.length - items.length) none)
  else none

/-- What a document holds for each field of a record. -/
def fields? (names : FieldNames) : Document → Option Fields
  | .object members => fieldsOfMembers? names members
  | .array items => fieldsOfItems? names items
  | _ => none

namespace Document

def string? : Document → Option String
  | .string text => text
  | _ => none

def bool? : Document → Option Bool
  | .bool b => some b
  | _ => none

/-- A whole number between 0 and `limit`. -/
def natUpTo? (limit : Nat) : Document → Option Nat
  | .number (some (.int n)) => if 0 ≤ n ∧ n ≤ limit then some n.toNat else none
  | _ => none

/-- An array whose items are all read by `read`. -/
def list? {α : Type u} (read : Document → Option α) : Document → Option (List α)
  | .array items => items.mapM read
  | _ => none

/-- Null, or what `read` reads. -/
def optional? {α : Type u} (read : Document → Option α) : Document → Option (Option α)
  | .null => some none
  | document => (read document).map some

/-- A field that is read by `read` if it is written and else has a value of its own. -/
def orDefault? {α : Type u} (default : α) (read : Document → Option α) :
    Option Document → Option α
  | none => some default
  | some document => read document

/-- A field that has to be written. -/
def required? {α : Type u} (read : Document → Option α) : Option Document → Option α
  | none => none
  | some document => read document

end Document

/-- Reads a whole text as one document of a given form. -/
def readText? {α : Type u} (read : Document → Option α) (text : String) : Option α :=
  match Document.ofText text.toList with
  | (document, false) => read document
  | (_, true) => none

end Switchboard.Json
