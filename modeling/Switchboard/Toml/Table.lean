import Switchboard.Config.Setting

/-!
# Tables of TOML

A value is set once and a table is opened once. Tables on the way to another
one come into being by themselves, and how they did decides what may be added
to them: a header may still open a table that only longer headers have led
through, and a key with points only enters tables that such keys have made.
-/
namespace Switchboard.Toml

/-- How a table has come into being. -/
inductive Standing where
  /-- By a header of its own. -/
  | opened
  /-- By a longer header. -/
  | implied
  /-- By a key with points. -/
  | pointed
  deriving DecidableEq

/-- What stands under a name. -/
inductive Part where
  | value (setting : Setting)
  | table (standing : Standing) (members : List (String × Part))
  /-- Tables that headers in double brackets have added one after the other. -/
  | rows (tables : List (List (String × Part)))

abbrev Members := List (String × Part)

mutual

def Part.setting : Part → Setting
  | .value setting => setting
  | .table _ members => .table (settings members)
  | .rows tables => .list (rowSettings tables)

def settings : List (String × Part) → List (String × Setting)
  | [] => []
  | (name, part) :: rest => (name, part.setting) :: settings rest

def rowSettings : List (List (String × Part)) → List Setting
  | [] => []
  | members :: rest => .table (settings members) :: rowSettings rest

end

/-- A change to the members of a table, which may depend on how the table came into being. -/
abbrev Change := Standing → Members → Option Members

/--
Changes the table at a path below a given one. Tables on the way come into being as `step`; of a
row of tables the last one is meant.
-/
def within (step : Standing) (change : Change) : List String → Change
  | [], standing, members => change standing members
  | name :: rest, _, members =>
    match members.lookup name with
    | none =>
      (within step change rest step []).map fun inner =>
        Json.insertMember name (.table step inner) members
    | some (.value _) => none
    | some (.table standing inner) =>
      if step = .pointed ∧ standing = .opened then none
      else (within step change rest standing inner).map fun inner =>
        Json.insertMember name (.table standing inner) members
    | some (.rows tables) =>
      match tables.getLast? with
      | none => none
      | some last => (within step change rest .opened last).map fun last =>
        Json.insertMember name (.rows (tables.dropLast ++ [last])) members

/-- Sets a member that is not yet set. -/
def define (name : String) (setting : Setting) (members : Members) : Option Members :=
  match members.lookup name with
  | some _ => none
  | none => some (Json.insertMember name (.value setting) members)

/-- Opens a table that no header has opened yet. -/
def openTable (name : String) (members : Members) : Option Members :=
  match members.lookup name with
  | none => some (Json.insertMember name (.table .opened []) members)
  | some (.table .implied inner) => some (Json.insertMember name (.table .opened inner) members)
  | some _ => none

/-- Adds a table to a row of tables. -/
def addTable (name : String) (members : Members) : Option Members :=
  match members.lookup name with
  | none => some (Json.insertMember name (.rows [[]]) members)
  | some (.rows tables) => some (Json.insertMember name (.rows (tables ++ [[]])) members)
  | some _ => none

/-- The last part of a path, and the parts before it. -/
def split (path : List String) : Option (List String × String) :=
  path.getLast?.map fun last => (path.dropLast, last)

/-- Sets what a key names. A key with points ends in a table that such keys have made. -/
def assign (key : List String) (setting : Setting) (members : Members) : Option Members :=
  match split key with
  | none => none
  | some ([], name) => define name setting members
  | some (path, name) =>
    within .pointed
      (fun standing members => if standing = .pointed then define name setting members else none)
      path .opened members

/-- Makes a change that a header asks for at the end of its path. -/
def atHeader (change : String → Members → Option Members) (path : List String)
    (members : Members) : Option Members :=
  match split path with
  | none => none
  | some (above, name) => within .implied (fun _ => change name) above .opened members

end Switchboard.Toml
