import Switchboard.Json.Token
import Switchboard.Json.Value

/-!
# JSON documents

A document is JSON text as it is written: members in their order, repeated
names kept, numerals and strings that denote nothing still present. Text that
breaks off or goes wrong is read up to that place, which is marked `broken`.
What a document denotes as a value is a second step; it refuses nesting deeper
than 127.
-/
namespace Switchboard.Json

inductive Document where
  | broken
  | null
  | bool (value : Bool)
  | number (value : Option Number)
  | string (text : Option String)
  | array (items : List Document)
  | object (members : List (Option String × Document))

/-- A member as written: its name, if that spells a text, and what follows the colon. -/
abbrev Member := Option String × Document

namespace Document

mutual

/-- The document at the head of the tokens, and the tokens after it. -/
def take : Nat → List Token → Document × List Token
  | 0, _ => (.broken, [])
  | _ + 1, .null :: rest => (.null, rest)
  | _ + 1, .bool b :: rest => (.bool b, rest)
  | _ + 1, .number value :: rest => (.number value, rest)
  | _ + 1, .string text :: rest => (.string text, rest)
  | _ + 1, .openArray :: .closeArray :: rest => (.array [], rest)
  | fuel + 1, .openArray :: rest =>
    let (items, rest) := takeItems fuel rest
    (.array items, rest)
  | _ + 1, .openObject :: .closeObject :: rest => (.object [], rest)
  | fuel + 1, .openObject :: rest =>
    let (members, rest) := takeMembers fuel rest
    (.object members, rest)
  | _ + 1, _ => (.broken, [])

/-- The items of an array up to its bracket. -/
def takeItems : Nat → List Token → List Document × List Token
  | 0, _ => ([.broken], [])
  | fuel + 1, tokens =>
    match take fuel tokens with
    | (item, .comma :: rest) =>
      let (items, rest) := takeItems fuel rest
      (item :: items, rest)
    | (item, .closeArray :: rest) => ([item], rest)
    | (item, _) => ([item, .broken], [])

/-- The members of an object up to its brace. -/
def takeMembers : Nat → List Token → List Member × List Token
  | 0, _ => ([(none, .broken)], [])
  | fuel + 1, .string name :: .colon :: rest =>
    match take fuel rest with
    | (value, .comma :: rest) =>
      let (members, rest) := takeMembers fuel rest
      ((name, value) :: members, rest)
    | (value, .closeObject :: rest) => ([(name, value)], rest)
    | (value, _) => ([(name, value), (none, .broken)], [])
  | _ + 1, .string name :: _ => ([(name, .broken)], [])
  | _ + 1, _ => ([(none, .broken)], [])

end

/-- A document with what follows it in the text. -/
def ofTokens (tokens : List Token) : Document × List Token :=
  take (2 * tokens.length + 2) tokens

/-- The document that a text begins with, and whether the text goes on after it. -/
def ofText (text : List Char) : Document × Bool :=
  match ofTokens (tokens text) with
  | (document, rest) => (document, !rest.isEmpty)

mutual

/-- No place in the document where the text goes wrong. -/
def intact : Document → Bool
  | .broken => false
  | .array items => intactItems items
  | .object members => intactMembers members
  | _ => true

def intactItems : List Document → Bool
  | [] => true
  | item :: rest => intact item && intactItems rest

def intactMembers : List Member → Bool
  | [] => true
  | (_, value) :: rest => intact value && intactMembers rest

end

mutual

/-- The value of a document whose arrays and objects are nested at most `depth` deep. -/
def value? : Nat → Document → Option Json
  | _, .broken => none
  | _, .null => some .null
  | _, .bool b => some (.bool b)
  | _, .number none => none
  | _, .number (some (.int n)) => some (.int n)
  | _, .number (some (.float x)) => some (.float x)
  | _, .string text => text.map .string
  | 0, .array _ => none
  | depth + 1, .array items => (itemValues? depth items).map .array
  | 0, .object _ => none
  | depth + 1, .object members => (memberValues? depth members).map ofMembers

def itemValues? : Nat → List Document → Option (List Json)
  | _, [] => some []
  | depth, item :: rest =>
    match value? depth item, itemValues? depth rest with
    | some value, some values => some (value :: values)
    | _, _ => none

def memberValues? : Nat → List Member → Option (List (String × Json))
  | _, [] => some []
  | depth, (name, item) :: rest =>
    match name, value? depth item, memberValues? depth rest with
    | some name, some value, some values => some ((name, value) :: values)
    | _, _, _ => none

end

mutual

/-- A document that denotes a given value. -/
def ofValue : Json → Document
  | .null => .null
  | .bool b => .bool b
  | .int n => .number (some (.int n))
  | .float x => .number (some (.float x))
  | .string s => .string (some s)
  | .array items => .array (ofItems items)
  | .object members => .object (ofMembers members)

def ofItems : List Json → List Document
  | [] => []
  | item :: rest => ofValue item :: ofItems rest

def ofMembers : List (String × Json) → List Member
  | [] => []
  | (name, value) :: rest => (some name, ofValue value) :: ofMembers rest

end

end Document

/-- Arrays and objects may be nested this deep. -/
def depthLimit : Nat := 127

/-- The value that a text denotes as a whole. -/
def ofText? (text : String) : Option Json :=
  match Document.ofText text.toList with
  | (document, false) => document.value? depthLimit
  | (_, true) => none

end Switchboard.Json
