import Switchboard.Yaml.Plain

/-!
# Anchors, aliases, tags and directives

What may stand before a node to name it or to say what it is, and the lines
before a document that declare how tags are abbreviated.
-/
namespace Switchboard.Yaml

/-- The name of an anchor or alias after its indicator. -/
def anchorName? (cursor : Cursor) : Option (String × Cursor) :=
  let (name, after) := cursor.next.takeWhile isNameChar
  let ends := match after.rest with
    | [] => true
    | c :: _ => atGap after.rest || "?:,]\x7d%@".toList.contains c || c.toNat == 0x60
  if !name.isEmpty && ends then some (String.ofList name, after) else none

/-! ### Tags -/

/-- A tag as written: a handle that abbreviates its beginning, and the rest. -/
structure Tag where
  handle : String
  suffix : String
  deriving DecidableEq

/-- The tag that says nothing. -/
def bareTag : String := "!"

/-- The characters of tags; `listed` where those that structure lists count too. -/
def isTagChar (listed : Bool) (c : Char) : Bool :=
  isNameChar c || ";/?:@&=+$.%!~*'()".toList.contains c || (listed && ",[]".toList.contains c)

/-- The bytes that a text with percent signs stands for. -/
def tagBytes : List Char → Option (List UInt8)
  | [] => some []
  | '%' :: a :: b :: rest =>
    match Json.hexDigit? a, Json.hexDigit? b, tagBytes rest with
    | some high, some low, some bytes => some (UInt8.ofNat (16 * high + low) :: bytes)
    | _, _, _ => none
  | c :: rest => if c = '%' then none else (tagBytes rest).map (UInt8.ofNat c.toNat :: ·)

/-- The text of a part of a tag. -/
def tagText? (written : List Char) : Option String :=
  (tagBytes written).bind fun bytes => String.fromUTF8? ⟨bytes.toArray⟩

/-- A part of a tag, which is not empty unless something stands before it. -/
def takeTagPart (listed : Bool) (head : String) (cursor : Cursor) : Option (String × Cursor) :=
  let (written, after) := cursor.takeWhile (isTagChar listed)
  if written.isEmpty && head.isEmpty then none
  else (tagText? written).map fun text => (head ++ text, after)

/-- A handle: an exclamation mark alone or a name between two of them. -/
def takeHandle (cursor : Cursor) : Option (String × Cursor) :=
  if cursor.rest.head? ≠ some '!' then none
  else
    let (name, after) := cursor.next.takeWhile isNameChar
    if after.rest.head? = some '!' then some (String.ofList ('!' :: name ++ ['!']), after.next)
    else if name.isEmpty then some ("!", after)
    else none

/-- A tag whose name is written out. -/
def verbatimTag? (cursor : Cursor) : Option (Tag × Cursor) :=
  match takeTagPart true "" (cursor.advance 2) with
  | some (suffix, after) =>
    if after.rest.head? = some '>' then some (⟨"", suffix⟩, after.next) else none
  | none => none

/-- A tag with a handle, or with an exclamation mark alone in front. -/
def shortTag? (cursor : Cursor) : Option (Tag × Cursor) :=
  match takeHandle cursor with
  | some (handle, after) =>
    if 1 < handle.length then
      (takeTagPart false "" after).map fun (suffix, after) => (⟨handle, suffix⟩, after)
    else
      let (written, after) := after.takeWhile (isTagChar false)
      (tagText? written).map fun suffix =>
        (if suffix.isEmpty then ⟨"", bareTag⟩ else ⟨handle, suffix⟩, after)
  | none =>
    (takeTagPart false "" cursor.next).map fun (suffix, after) => (⟨"!", suffix⟩, after)

/-- The tag that begins here. -/
def tag? (inFlow : Bool) (cursor : Cursor) : Option (Tag × Cursor) :=
  let written :=
    if cursor.rest.drop 1 |>.head? |>.any (· == '<') then verbatimTag? cursor else shortTag? cursor
  written.filter fun (_, after) =>
    atGap after.rest || (inFlow && after.rest.head? == some ',')

/-! ### Directives -/

inductive Directive where
  /-- The version of the format, of which only the second number is free. -/
  | version
  | tag (handle prefixText : String)
  deriving DecidableEq

/-- A number of at most nine digits. -/
def takeVersionNumber (cursor : Cursor) : Option (Nat × Cursor) :=
  let (digits, after) := cursor.takeWhile Char.isDigit
  if digits.isEmpty || 9 < digits.length then none
  else some (ofDigits (digits.map digitOf), after)

/-- The version, which is 1.1 or 1.2. -/
def version? (cursor : Cursor) : Option (Directive × Cursor) := do
  let (major, after) ← takeVersionNumber cursor.skipBlanks
  if after.rest.head? ≠ some '.' then none
  let (minor, after) ← takeVersionNumber after.next
  if major = 1 ∧ (minor = 1 ∨ minor = 2) then some (.version, after) else none

def tagDirective? (cursor : Cursor) : Option (Directive × Cursor) := do
  let (handle, after) ← takeHandle cursor.skipBlanks
  if !after.rest.head?.any isBlank then none
  let (prefixText, after) ← takeTagPart true "" after.skipBlanks
  if atGap after.rest then some (.tag handle prefixText, after) else none

/-- The directive on a line that begins with a percent sign, and the beginning of the next line. -/
def directive? (cursor : Cursor) : Option (Directive × Cursor) := do
  let (name, after) := cursor.next.takeWhile isNameChar
  if !atGap after.rest then none
  let (directive, after) ←
    if name = "YAML".toList then version? after
    else if name = "TAG".toList then tagDirective? after
    else none
  (directive, ·) <$> after.endLine?

end Switchboard.Yaml
