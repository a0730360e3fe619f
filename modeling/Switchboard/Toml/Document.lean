import Switchboard.Toml.Value

/-!
# TOML documents

A document is a row of statements: a key with its value, a header that opens a
table, or a header that adds a table to a row of tables. Keys belong to the
table of the last header.
-/
namespace Switchboard.Toml

inductive Statement where
  | assign (key : List String) (setting : Setting)
  | table (path : List String)
  | append (path : List String)

/-- The text after the end of a line, before which only a comment may stand. -/
def endLine (text : List Char) : Option (List Char) :=
  match skip text with
  | [] => some []
  | '\n' :: rest => some rest
  | '#' :: rest => afterComment rest
  | _ => none

/-- The statement at the head of a text, and what follows it on its line. -/
def takeStatement (text : List Char) : Option (Statement × List Char) :=
  match text with
  | '[' :: '[' :: rest =>
    match takeKey rest with
    | some (path, ']' :: ']' :: rest) => some (.append path, rest)
    | _ => none
  | '[' :: rest =>
    match takeKey rest with
    | some (path, ']' :: rest) => some (.table path, rest)
    | _ => none
  | _ =>
    match takeKey text with
    | some (key, '=' :: rest) =>
      (takeValue (2 * text.length + 2) (depthLimit - 1) (skip rest)).map fun (setting, rest) =>
        (.assign key setting, rest)
    | _ => none

/-- The statements of a text. -/
def statements : Nat → List Char → Option (List Statement)
  | 0, _ => none
  | fuel + 1, text =>
    match skipFiller (text.length + 1) text with
    | none => none
    | some [] => some []
    | some text =>
      match takeStatement text with
      | none => none
      | some (statement, rest) =>
        match endLine rest with
        | none => none
        | some rest => (statements fuel rest).map (statement :: ·)

/-- A document while it is read. -/
structure State where
  members : Members
  /-- The table that keys belong to. -/
  table : List String

def State.after (state : State) : Statement → Option State
  | .assign key setting =>
    (within .implied (fun _ => assign key setting) state.table .opened state.members).map
      fun members => { state with members := members }
  | .table path => (atHeader openTable path state.members).map (⟨·, path⟩)
  | .append path => (atHeader addTable path state.members).map (⟨·, path⟩)

/-- The settings of a document. -/
def ofText? (text : String) : Option Setting :=
  let text := prepared text
  (statements (text.length + 1) text).bind fun statements =>
    (statements.foldlM State.after ⟨[], []⟩).map fun state => .table (settings state.members)

end Switchboard.Toml
