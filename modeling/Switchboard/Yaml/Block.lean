import Switchboard.Yaml.Cursor

/-!
# Block scalars

Text that is set off by its indentation. After a bar its lines stay as they
are. After a greater-than sign they are joined, unless one of them begins with
a blank. Signs and a digit after the indicator tell what becomes of line ends
at the end of the text and how deep it is indented.
-/
namespace Switchboard.Yaml

/-- What becomes of the line ends after the last line of a text. -/
inductive Chomping where
  | strip
  | clip
  | keep
  deriving DecidableEq

structure BlockHeader where
  /-- Whether lines stay as they are. -/
  literal : Bool
  chomping : Chomping
  /-- How much deeper than the collection around it the text stands, if that is given. -/
  deeper : Option Nat

def chompingOf? : Char → Option Chomping
  | '+' => some .keep
  | '-' => some .strip
  | _ => none

/-- A depth is a digit other than zero. -/
def depthOf? (c : Char) : Option Nat :=
  if c.isDigit ∧ c ≠ '0' then some (c.toNat - '0'.toNat) else none

/-- The signs after an indicator, in either order, and how many there are. -/
def headerOf (literal : Bool) (text : List Char) : BlockHeader × Nat :=
  match text.head?.bind chompingOf?, text.head?.bind depthOf? with
  | some chomping, _ =>
    match text.tail.head?.bind depthOf? with
    | some depth => (⟨literal, chomping, some depth⟩, 2)
    | none => (⟨literal, chomping, none⟩, 1)
  | none, some depth =>
    match text.tail.head?.bind chompingOf? with
    | some chomping => (⟨literal, chomping, some depth⟩, 2)
    | none => (⟨literal, .clip, some depth⟩, 1)
  | none, none => (⟨literal, .clip, none⟩, 0)

/-- Line ends and indentation that have been read. -/
structure Margin where
  breaks : List Char
  /-- The greatest column that has been reached. -/
  reached : Nat
  after : Cursor

/-- Takes empty lines and indentation. Where the column is not yet known all spaces count. -/
def takeMargin (indent : Option Nat) : Nat → List Char → Nat → Cursor → Option Margin
  | 0, _, _, _ => none
  | fuel + 1, breaks, reached, cursor =>
    let spaces := (cursor.takeWhile (· == ' ')).1.length
    let cursor := cursor.advance (match indent with
      | some column => min spaces (column - cursor.column)
      | none => spaces)
    let reached := max reached cursor.column
    match cursor.rest with
    | [] => some ⟨breaks, reached, cursor⟩
    | c :: _ =>
      if c = '\t' ∧ indent.all (cursor.column < ·) then none
      else if isBreak c then takeMargin indent fuel (breaks ++ [c]) reached cursor.next
      else some ⟨breaks, reached, cursor⟩

/-- A block scalar while it is read. -/
structure BlockText where
  /-- The text in pieces, the latest first. -/
  pieces : List (List Char)
  /-- The end of the last line. -/
  ending : List Char
  /-- The line ends of the empty lines after it. -/
  empty : List Char
  /-- Whether the last line begins with a blank. -/
  indented : Bool

/-- What stands between the last line and one that begins with `c`. -/
def BlockText.between (literal : Bool) (c : Char) (block : BlockText) : List Char :=
  if !literal && block.ending == ['\n'] && !block.indented && !isBlank c then
    if block.empty.isEmpty then [' '] else block.empty
  else block.ending ++ block.empty

/-- The text with what becomes of the line ends after it. -/
def BlockText.finish (chomping : Chomping) (block : BlockText) : List Char :=
  let text := block.pieces.reverse.flatten
  match chomping with
  | .strip => text
  | .clip => text ++ block.ending
  | .keep => text ++ block.ending ++ block.empty

/-- Takes the lines that stand at a column. -/
def takeLines (literal : Bool) (indent : Nat) : Nat → BlockText → Cursor →
    Option (BlockText × Cursor)
  | 0, _, _ => none
  | fuel + 1, block, cursor =>
    match cursor.rest with
    | [] => some (block, cursor)
    | c :: _ =>
      if cursor.column ≠ indent then some (block, cursor)
      else
        let (line, there) := cursor.takeWhile fun _ => true
        match takeMargin (some indent) fuel [] 0 there.next with
        | none => none
        | some margin =>
          takeLines literal indent fuel
            ⟨(block.between literal c ++ line) :: block.pieces, there.rest.take 1, margin.breaks,
              isBlank c⟩
            margin.after

/-- The text that begins at an indicator, in a collection at a column, and the place after it. -/
def blockText? (literal : Bool) (around : Option Nat) (fuel : Nat) (cursor : Cursor) :
    Option (List Char × Cursor) :=
  let (header, length) := headerOf literal (cursor.rest.drop 1)
  match (cursor.advance (length + 1)).endLine? with
  | none => none
  | some cursor =>
    let given := header.deeper.map (around.getD 0 + ·)
    match takeMargin given fuel [] 0 cursor with
    | none => none
    | some margin =>
      let least := match around with
        | some column => column + 1
        | none => 1
      let indent := given.getD (max margin.reached least)
      (takeLines literal indent fuel ⟨[], [], margin.breaks, false⟩ margin.after).map
        fun (block, after) => (block.finish header.chomping, after)

end Switchboard.Yaml
