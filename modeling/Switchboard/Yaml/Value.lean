import Switchboard.Config.Setting
import Switchboard.Number.Numeral
import Switchboard.Yaml.Node

/-!
# Values of YAML

A plain scalar is null, a truth value or a number if it reads as one, and else
a text. A number with a leading zero is a text. Tags of the format itself ask
for one of these readings. A node with a tag of its own making is a table whose
only member is named by the tag. A scalar with any other tag is a text.

An alias stands for what it means, as often as it occurs. How deep collections
may be nested and how often aliases are followed is limited.
-/
namespace Switchboard.Yaml

/-! ### Plain scalars -/

def nullWords : List String := ["~", "null", "Null", "NULL"]

def trueWords : List String := ["true", "True", "TRUE"]

def falseWords : List String := ["false", "False", "FALSE"]

/-- Numbers that are none of the finite ones. -/
def unboundedWords : List String :=
  [".inf", ".Inf", ".INF", "+.inf", "+.Inf", "+.INF", "-.inf", "-.Inf", "-.INF",
    ".nan", ".NaN", ".NAN"]

/-- A text without the sign at its head. -/
def unsigned : List Char → List Char
  | '+' :: rest => rest
  | '-' :: rest => rest
  | text => text

/-- More than one digit, the first of which is zero. -/
def hasLeadingZero (word : List Char) : Bool :=
  match unsigned word with
  | '0' :: second :: rest => (second :: rest).all Char.isDigit
  | _ => false

/-- The digits of a number to a given base. -/
def digitsTo? (base : Nat) (digits : List Char) : Option Nat :=
  match digits.mapM Json.hexDigit? with
  | some (first :: rest) =>
    if (first :: rest).all (· < base) then some ((first :: rest).foldl (base * · + ·) 0) else none
  | _ => none

/-- A whole number after its sign. -/
def magnitude? : List Char → Option Nat
  | '0' :: 'x' :: digits => digitsTo? 16 digits
  | '0' :: 'o' :: digits => digitsTo? 8 digits
  | '0' :: 'b' :: digits => digitsTo? 2 digits
  | digits => digitsTo? 10 digits

/-- The range of whole numbers, signed and unsigned, of 128 bits. -/
def isWide (n : Int) : Bool :=
  -0x80000000000000000000000000000000 ≤ n && n ≤ 0xFFFFFFFFFFFFFFFFFFFFFFFFFFFFFFFF

def whole? (word : List Char) : Option Int :=
  if hasLeadingZero word then none
  else
    let n := (magnitude? (unsigned word)).map fun n =>
      if word.head? = some '-' then -(n : Int) else n
    n.filter isWide

def bool? (text : String) : Option Bool :=
  if text ∈ trueWords then some true else if text ∈ falseWords then some false else none

/-- Whether a word is a number with a fraction or exponent, or one too large for a whole number. -/
def isFraction (word : List Char) : Bool :=
  unboundedWords.contains (String.ofList word) ||
    ((Numeral.ofText? word).bind Numeral.nearest?).isSome

/-- The value of a plain scalar. -/
def ofPlain (text : String) : Setting :=
  if text = "" ∨ text ∈ nullWords then .null
  else match bool? text, whole? text.toList with
    | some b, _ => .bool b
    | none, some n => .int n
    | none, none =>
      if !hasLeadingZero text.toList && isFraction text.toList then .fraction else .text text

/-! ### Tags -/

/-- The name in a tag of its own making: all of it after the exclamation mark, if there is more. -/
def localName? (tag : String) : Option String :=
  match tag.toList with
  | ['!'] => some tag
  | '!' :: name => some (String.ofList name)
  | _ => none

/-- A setting under the name that its tag makes. -/
def labelled (tag : Option String) (setting : Setting) : Setting :=
  match tag.bind localName? with
  | some name => .table [(name, setting)]
  | none => setting

def ofUntagged (plain : Bool) (text : String) : Setting :=
  if plain then ofPlain text else .text text

/-- The value of a scalar without the label that its tag may make. -/
def ofScalar (tag : Option String) (plain : Bool) (text : String) : Option Setting :=
  match tag with
  | none => some (ofUntagged plain text)
  | some tag =>
    if (localName? tag).isSome then some (ofUntagged plain text)
    else if tag = Reader.core ++ "bool" then (bool? text).map .bool
    else if tag = Reader.core ++ "int" then (whole? text.toList).map .int
    else if tag = Reader.core ++ "float" then
      if isFraction text.toList then some .fraction else none
    else if tag = Reader.core ++ "null" then if text ∈ nullWords then some .null else none
    else some (.text text)

/-! ### Nodes -/

/-- The number of collections that may be nested. -/
def nestingLimit : Nat := 128

/-- What is known about a whole document while it is read. -/
structure Scope where
  named : List Named
  /-- How often aliases may still be followed. -/
  jumps : Nat

/-- Of two named nodes the one that begins later. -/
def later (best : Option Named) (next : Named) : Option Named :=
  match best with
  | none => some next
  | some best => if best.place < next.place then some next else some best

/-- The node that an alias means. -/
def Scope.meant? (scope : Scope) (number : Nat) : Option Node :=
  ((scope.named.filter (·.number = number)).foldl later none).map (·.node)

/-- Follows an alias. -/
def Scope.follow (scope : Scope) : Node → Option (Node × Scope)
  | .alias number =>
    match scope.meant? number, scope.jumps with
    | some node, jumps + 1 => some (node, { scope with jumps := jumps })
    | _, _ => none
  | node => some (node, scope)

/-- The name that a node stands for as a key. -/
def Scope.key (scope : Scope) (node : Node) : Option (String × Scope) :=
  match scope.follow node with
  | some (.scalar _ _ text, scope) => some (text, scope)
  | _ => none

/-- Reads items one after the other. -/
def Scope.items (read : Node → Scope → Option (Setting × Scope)) :
    List Node → Scope → Option (List Setting × Scope)
  | [], scope => some ([], scope)
  | item :: rest, scope =>
    (read item scope).bind fun (setting, scope) =>
      (scope.items read rest).map fun (settings, scope) => (setting :: settings, scope)

/-- Reads members one after the other. -/
def Scope.members (read : Node → Scope → Option (Setting × Scope)) :
    List (Node × Node) → Scope → Option (List (String × Setting) × Scope)
  | [], scope => some ([], scope)
  | (key, value) :: rest, scope =>
    (scope.key key).bind fun (name, scope) =>
      (read value scope).bind fun (setting, scope) =>
        (scope.members read rest).map fun (settings, scope) => ((name, setting) :: settings, scope)

/-- The setting that a node amounts to, with so many collections nested at most. -/
def Node.setting? : Nat → Node → Scope → Option (Setting × Scope)
  | depth, node, scope =>
    match scope.follow node, depth with
    | some (.scalar tag plain text, scope), _ =>
      (ofScalar tag plain text).map fun setting => (labelled tag setting, scope)
    | some (.list tag items, scope), depth + 1 =>
      (scope.items (Node.setting? depth) items).map fun (settings, scope) =>
        (labelled tag (.list settings), scope)
    | some (.table tag members, scope), depth + 1 =>
      (scope.members (Node.setting? depth) members).map fun (settings, scope) =>
        (labelled tag (.ofMembers settings), scope)
    | _, _ => none

mutual

/-- The number of parts that a document consists of, the ends of collections counted too. -/
def Node.size : Node → Nat
  | .alias _ => 1
  | .scalar .. => 1
  | .list _ items => 2 + itemSizes items
  | .table _ members => 2 + memberSizes members

def itemSizes : List Node → Nat
  | [] => 0
  | item :: rest => item.size + itemSizes rest

def memberSizes : List (Node × Node) → Nat
  | [] => 0
  | (key, value) :: rest => key.size + value.size + memberSizes rest

end

/-- The settings of a whole document: a table, or nothing at all. -/
def Node.settings? (named : List Named) (node : Node) : Option Setting :=
  let scope : Scope := ⟨named, 100 * node.size⟩
  match node with
  | .scalar _ true "" => some (.table [])
  | .table _ members => ((Node.table none members).setting? nestingLimit scope).map (·.1)
  | _ => none

end Switchboard.Yaml
