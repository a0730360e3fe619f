import Switchboard.Json.Document

/-!
# Settings

What the layers of a configuration consist of, whichever format they are
written in. Objects are laid over each other member by member and to any
depth; everything else is replaced as a whole, lists too.

In a file a table may wrap a setting that takes its place, and may number the
source that it comes from; the outermost table does neither.

Settings are read as documents. A setting that belongs to a section of its own
is taken as it is. The others are gathered first, and gathering keeps neither
whole numbers beyond a machine word nor single characters as texts.
-/
namespace Switchboard

inductive Setting where
  | null
  | bool (value : Bool)
  | int (value : Int)
  /-- A number that is not whole. Nothing is set to one, so its value does not matter. -/
  | fraction
  | text (value : String)
  /-- A character in a place where a longer text would be refused. -/
  | char (value : Char)
  | list (items : List Setting)
  | table (members : List (String × Setting))

namespace Setting

/-- The table with these members; of several members of one name the last counts. -/
def ofMembers (members : List (String × Setting)) : Setting :=
  .table (members.foldl (fun table member => Json.insertMember member.1 member.2 table) [])

/-- A setting inside tables of one member each. -/
def nested (names : List String) (setting : Setting) : Setting :=
  names.foldr (fun name inner => .table [(name, inner)]) setting

mutual

def ofJson : Json → Setting
  | .null => .null
  | .bool b => .bool b
  | .int n => .int n
  | .float _ => .fraction
  | .string s => .text s
  | .array items => .list (ofItems items)
  | .object members => .table (ofObject members)

def ofItems : List Json → List Setting
  | [] => []
  | item :: rest => ofJson item :: ofItems rest

def ofObject : List (String × Json) → List (String × Setting)
  | [] => []
  | (name, value) :: rest => (name, ofJson value) :: ofObject rest

end

/-! ### Wrapped settings -/

/-- The member of a table that takes the place of the whole table. -/
def wrappedName : String := "___figment_value_value"

/-- The member of a table that only numbers where it comes from. -/
def sourceName : String := "___figment_value_id"

/-- Whether a setting is a number that a source can have. -/
def isSourceNumber : Setting → Bool
  | .int n => 0 ≤ n && n ≤ maxWord
  | _ => false

/-- What stands for a table with these members. -/
def unwrapTable (members : List (String × Setting)) : Setting :=
  match members.lookup wrappedName with
  | some wrapped => wrapped
  | none => .table members

mutual

/-- A setting in which wrapped settings stand for themselves; nothing if a source is no number. -/
def unwrap? : Setting → Option Setting
  | .list items => (unwrapItems? items).map .list
  | .table members => (unwrapWithin? members).map unwrapTable
  | setting => some setting

def unwrapItems? : List Setting → Option (List Setting)
  | [] => some []
  | item :: rest =>
    (unwrap? item).bind fun item => (unwrapItems? rest).map fun rest => item :: rest

/-- The members of a table inside another setting, which do not tell where it comes from. -/
def unwrapWithin? : List (String × Setting) → Option (List (String × Setting))
  | [] => some []
  | (name, setting) :: rest =>
    if name = sourceName then
      if isSourceNumber setting then unwrapWithin? rest else none
    else
      (unwrap? setting).bind fun setting =>
        (unwrapWithin? rest).map fun rest => (name, setting) :: rest

end

/-- The members of the outermost table, which is never wrapped itself. -/
def unwrapMembers? (members : List (String × Setting)) : Option (List (String × Setting)) :=
  members.mapM fun (name, setting) => (unwrap? setting).map (name, ·)

/-! ### Layers -/

mutual

/-- The setting `upper` laid over another one. -/
def overlay (lower upper : Setting) : Setting :=
  match upper with
  | .table members =>
    match lower with
    | .table under => .table (overlayMembers under members)
    | _ => .table members
  | other => other

def overlayMembers (under : List (String × Setting)) :
    List (String × Setting) → List (String × Setting)
  | [] => under
  | (name, setting) :: rest =>
    let laid := match under.lookup name with
      | some old => overlay old setting
      | none => setting
    overlayMembers (Json.insertMember name laid under) rest

end

/-! ### Reading -/

/-- How a setting is read: as it is, or after it has been gathered. -/
inductive Reading where
  | direct
  | gathered
  deriving DecidableEq

/-- The range of signed and unsigned machine words. -/
def isWord (n : Int) : Bool := -(signedLimit : Int) ≤ n && n ≤ maxWord

def wideNumber : Reading → Json.Document
  | .direct => .number none
  | .gathered => .broken

def character (c : Char) : Reading → Json.Document
  | .direct => .string (some (String.singleton c))
  | .gathered => .string none

mutual

/-- A setting as a document. -/
def document (reading : Reading) : Setting → Json.Document
  | .null => .null
  | .bool b => .bool b
  | .int n => if isWord n then .number (some (.int n)) else wideNumber reading
  | .fraction => .number none
  | .text s => .string (some s)
  | .char c => character c reading
  | .list items => .array (itemDocuments reading items)
  | .table members => .object (memberDocuments reading members)

def itemDocuments (reading : Reading) : List Setting → List Json.Document
  | [] => []
  | item :: rest => document reading item :: itemDocuments reading rest

def memberDocuments (reading : Reading) : List (String × Setting) → List Json.Member
  | [] => []
  | (name, setting) :: rest =>
    (some name, document reading setting) :: memberDocuments reading rest

end

end Setting

end Switchboard
