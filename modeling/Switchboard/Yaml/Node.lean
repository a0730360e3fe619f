import Switchboard.Yaml.Token

/-!
# Nodes of YAML

A document is a node: a scalar, a list, a table, or an alias of a node that
has been given a name. A name may be given again, and an alias means the node
that has it at that place. Names are counted, a repeated one not, and nodes
whose names have the same number are told apart by the order in which they
begin.
-/
namespace Switchboard.Yaml

inductive Node where
  | alias (number : Nat)
  | scalar (tag : Option String) (plain : Bool) (text : String)
  | list (tag : Option String) (items : List Node)
  | table (tag : Option String) (members : List (Node × Node))

/-- What stands where a node is missing. -/
def Node.empty : Node := .scalar none true ""

/--
A node with a name: the number of the name, how many named nodes begin before it, and the node.
-/
structure Named where
  number : Nat
  place : Nat
  node : Node

/-- Tokens while they are turned into nodes. -/
structure Reader where
  tokens : List Token
  /-- The handles of tags and what they stand for. -/
  handles : List (String × String)
  /-- Names with their numbers. -/
  names : List (String × Nat)
  /-- The number of named nodes that have begun. -/
  begun : Nat
  named : List Named

namespace Reader

def core : String := "tag:yaml.org,2002:"

/-- The handles that every document knows. -/
def commonHandles : List (String × String) := [("!", "!"), ("!!", core)]

def start (tokens : List Token) : Reader := ⟨tokens, commonHandles, [], 0, []⟩

def rest (tokens : List Token) (r : Reader) : Reader := { r with tokens := tokens }

/-- Gives the next number to a name. -/
def name (name : String) (r : Reader) : Reader :=
  { r with
    names := (name, r.names.length) :: r.names.filter (·.1 ≠ name)
    begun := r.begun + 1 }

/-- What stands before a node. -/
structure Properties where
  anchor : Option String
  tag : Option Tag

/-- Takes an anchor and a tag in either order. -/
def takeProperties (r : Reader) : Properties × Reader :=
  match r.tokens with
  | .anchor name :: .tag tag :: rest => (⟨some name, some tag⟩, r.rest rest)
  | .tag tag :: .anchor name :: rest => (⟨some name, some tag⟩, r.rest rest)
  | .anchor name :: rest => (⟨some name, none⟩, r.rest rest)
  | .tag tag :: rest => (⟨none, some tag⟩, r.rest rest)
  | _ => (⟨none, none⟩, r)

/-- A tag written out. -/
def resolve? (r : Reader) (tag : Tag) : Option String :=
  if tag.handle.isEmpty then some tag.suffix
  else (r.handles.lookup tag.handle).map (· ++ tag.suffix)

/-- The tag of a node, if it has one; nothing if its handle is unknown. -/
def tagOf? (r : Reader) : Option Tag → Option (Option String)
  | none => some none
  | some tag => (r.resolve? tag).map some

def nextIs (r : Reader) (marks : List Token) : Bool := r.tokens.head?.all marks.contains

mutual

/--
The node that begins at the head of the tokens. Collections that are set off by their columns may
stand only where `block` is, and lists without a column of their own where `indentless` is.
-/
def takeNode (block indentless : Bool) : Nat → Reader → Option (Node × Reader)
  | 0, _ => none
  | fuel + 1, r =>
    match r.tokens with
    | .alias name :: rest => (r.names.lookup name).map fun number => (.alias number, r.rest rest)
    | _ =>
      let (properties, r) := r.takeProperties
      match r.tagOf? properties.tag, properties.anchor with
      | none, _ => none
      | some tag, none => takeContent block indentless tag properties.tag.isSome fuel r
      | some tag, some name =>
        let named := r.name name
        (takeContent block indentless tag true fuel named).map fun (node, after) =>
          (node, { after with named := ⟨r.names.length, r.begun, node⟩ :: after.named })

/-- The node after its properties; an empty one if there are some and nothing follows them. -/
def takeContent (block indentless : Bool) (tag : Option String) (described : Bool) :
    Nat → Reader → Option (Node × Reader)
  | 0, _ => none
  | fuel + 1, r =>
    match r.tokens with
    | .scalar plain text :: rest => some (.scalar tag plain text, r.rest rest)
    | .openList :: rest =>
      (takeFlowItems true fuel (r.rest rest)).map fun (items, r) => (.list tag items, r)
    | .openTable :: rest =>
      (takeFlowMembers true fuel (r.rest rest)).map fun (members, r) => (.table tag members, r)
    | tokens =>
      match tokens, block, indentless with
      | .dash :: _, _, true =>
        (takeIndentless fuel r).map fun (items, r) => (.list tag items, r)
      | .blockList :: rest, true, _ =>
        (takeItems fuel (r.rest rest)).map fun (items, r) => (.list tag items, r)
      | .blockTable :: rest, true, _ =>
        (takeMembers fuel (r.rest rest)).map fun (members, r) => (.table tag members, r)
      | _, _, _ => if described then some (.scalar tag true "", r) else none

/-- A node, or an empty one if one of the marks comes next. -/
def takeUnless (marks : List Token) (block indentless : Bool) :
    Nat → Reader → Option (Node × Reader)
  | 0, _ => none
  | fuel + 1, r =>
    if r.nextIs marks then some (.empty, r) else takeNode block indentless fuel r

/-- The items of a list that stands at a column. -/
def takeItems : Nat → Reader → Option (List Node × Reader)
  | 0, _ => none
  | fuel + 1, r =>
    match r.tokens with
    | .dash :: rest =>
      (takeUnless [.dash, .blockEnd] true false fuel (r.rest rest)).bind fun (item, r) =>
        (takeItems fuel r).map fun (items, r) => (item :: items, r)
    | .blockEnd :: rest => some ([], r.rest rest)
    | _ => none

/-- The items of a list that stands at the column of the table around it. -/
def takeIndentless : Nat → Reader → Option (List Node × Reader)
  | 0, _ => none
  | fuel + 1, r =>
    match r.tokens with
    | .dash :: rest =>
      (takeUnless [.dash, .key, .value, .blockEnd] true false fuel (r.rest rest)).bind
        fun (item, r) => (takeIndentless fuel r).map fun (items, r) => (item :: items, r)
    | _ => some ([], r)

/-- The members of a table that stands at a column. -/
def takeMembers : Nat → Reader → Option (List (Node × Node) × Reader)
  | 0, _ => none
  | fuel + 1, r =>
    match r.tokens with
    | .key :: rest =>
      (takeUnless [.key, .value, .blockEnd] true true fuel (r.rest rest)).bind fun (key, r) =>
        (takeValue [.key, .value, .blockEnd] true fuel r).bind fun (value, r) =>
          (takeMembers fuel r).map fun (members, r) => ((key, value) :: members, r)
    | .blockEnd :: rest => some ([], r.rest rest)
    | _ => none

/-- The value of a key; an empty one if there is none. -/
def takeValue (marks : List Token) (block : Bool) : Nat → Reader → Option (Node × Reader)
  | 0, _ => none
  | fuel + 1, r =>
    match r.tokens with
    | .value :: rest => takeUnless marks block block fuel (r.rest rest)
    | _ => some (.empty, r)

/-- The items of a list in brackets, the first of which needs no comma. -/
def takeFlowItems (first : Bool) : Nat → Reader → Option (List Node × Reader)
  | 0, _ => none
  | fuel + 1, r =>
    match r.tokens, first with
    | .closeList :: rest, _ => some ([], r.rest rest)
    | .comma :: .closeList :: rest, false => some ([], r.rest rest)
    | .comma :: rest, false =>
      (takeFlowItem fuel (r.rest rest)).bind fun (item, r) =>
        (takeFlowItems false fuel r).map fun (items, r) => (item :: items, r)
    | _, true =>
      (takeFlowItem fuel r).bind fun (item, r) =>
        (takeFlowItems false fuel r).map fun (items, r) => (item :: items, r)
    | _, false => none

/--
An item of a list in brackets, which may be a key with a value. Where the key is missing the
token in its place is lost.
-/
def takeFlowItem : Nat → Reader → Option (Node × Reader)
  | 0, _ => none
  | fuel + 1, r =>
    match r.tokens with
    | .key :: rest =>
      let key := if (r.rest rest).nextIs [.value, .comma, .closeList] then
        some (.empty, r.rest (rest.drop 1)) else takeNode false false fuel (r.rest rest)
      key.bind fun (key, r) =>
        (takeValue [.comma, .closeList] false fuel r).map fun (value, r) =>
          (.table none [(key, value)], r)
    | _ => takeNode false false fuel r

/-- The members of a table in braces, the first of which needs no comma. -/
def takeFlowMembers (first : Bool) : Nat → Reader → Option (List (Node × Node) × Reader)
  | 0, _ => none
  | fuel + 1, r =>
    match r.tokens, first with
    | .closeTable :: rest, _ => some ([], r.rest rest)
    | .comma :: .closeTable :: rest, false => some ([], r.rest rest)
    | .comma :: rest, false =>
      (takeFlowMember fuel (r.rest rest)).bind fun (member, r) =>
        (takeFlowMembers false fuel r).map fun (members, r) => (member :: members, r)
    | _, true =>
      (takeFlowMember fuel r).bind fun (member, r) =>
        (takeFlowMembers false fuel r).map fun (members, r) => (member :: members, r)
    | _, false => none

/-- A member of a table in braces, whose value may be missing. -/
def takeFlowMember : Nat → Reader → Option ((Node × Node) × Reader)
  | 0, _ => none
  | fuel + 1, r =>
    match r.tokens with
    | .key :: rest =>
      (takeUnless [.value, .comma, .closeTable] false false fuel (r.rest rest)).bind
        fun (key, r) => (takeValue [.comma, .closeTable] false fuel r).map fun (value, r) =>
          ((key, value), r)
    | _ => (takeNode false false fuel r).map fun (key, r) => ((key, .empty), r)

end

/-! ### Documents -/

/-- The handles that directives declare. -/
def declaredHandles (directives : List Directive) : List (String × String) :=
  directives.filterMap fun
    | .tag handle prefixText => some (handle, prefixText)
    | .version => none

/-- Adds the handles that directives declare; nothing if something is declared twice. -/
def declare (r : Reader) (directives : List Directive) : Option Reader :=
  let handles := declaredHandles directives
  let names : List String := handles.map Prod.fst
  if (directives.filter (· == .version)).length ≤ 1 ∧ names.Nodup then
    some { r with handles := handles ++ r.handles }
  else none

def directiveOf? : Token → Option Directive
  | .directive directive => some directive
  | _ => none

/-- Takes the beginning of the first document, whose mark may be left out without directives. -/
def takeStart (r : Reader) : Option (Bool × Reader) :=
  let directives := (r.tokens.takeWhile fun token => (directiveOf? token).isSome).filterMap
    directiveOf?
  match r.tokens.drop directives.length with
  | .documentStart :: rest => (r.declare directives).map fun r => (true, r.rest rest)
  | _ => if directives.isEmpty then some (false, r) else none

/-- Whether nothing but ends of documents is left. -/
def isDone (r : Reader) : Bool := r.tokens.all (· == .documentEnd)

/-- Whether the document that has been opened is empty. -/
def isEmpty (r : Reader) : Bool :=
  match r.tokens with
  | [] | .documentEnd :: _ | .documentStart :: _ | .directive _ :: _ => true
  | _ => false

/-- The only document, if it is not left out altogether. -/
def document? (r : Reader) : Option (Option Node × Reader) :=
  match r.takeStart with
  | none => none
  | some (explicit, r) =>
    if !explicit && r.tokens.isEmpty then some (none, r)
    else
      let taken := if explicit && r.isEmpty then some (Node.empty, r)
        else takeNode true false (4 * r.tokens.length + 4) r
      taken.bind fun (node, r) => if r.isDone then some (some node, r) else none

end Reader

end Switchboard.Yaml
