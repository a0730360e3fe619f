import Switchboard.Yaml.Gap

/-!
# Plain scalars

Text without quotes. It ends where a colon stands alone, where a comment
follows a gap, at a mark between documents and, in brackets, at a character
that structures lists and tables. Outside of brackets its further lines have to
stand deeper than the collection it belongs to.
-/
namespace Switchboard.Yaml

/-- The characters that structure lists and tables in brackets. -/
def isFlowMark (c : Char) : Bool :=
  c == ',' || c == '[' || c == ']' || c == '\x7b' || c == '\x7d'

/-- The characters that no plain scalar begins with. -/
def isIndicator (c : Char) : Bool :=
  isFlowMark c || "-?:#&*!|>'\"%@".toList.contains c || c.toNat == 0x60

/-- Whether a plain scalar begins here. -/
def beginsPlain (inFlow : Bool) : List Char → Bool
  | [] => false
  | c :: rest =>
    (!isBlank c && !isBreak c && !isIndicator c) ||
      (c == '-' && !rest.head?.any isBlank) ||
      (!inFlow && (c == '?' || c == ':') && !atGap rest)

/-- The characters that must not follow a colon in brackets. -/
def isMisplaced (c : Char) : Bool := c == '?' || isFlowMark c

/-- The characters of a word of a plain scalar; nothing if a colon is misplaced. -/
def plainWord (inFlow : Bool) : List Char → Option (List Char)
  | [] => some []
  | c :: rest =>
    if isBlank c || isBreak c then some []
    else if c == ':' && inFlow && rest.head?.any isMisplaced then none
    else if c == ':' && atGap rest then some []
    else if inFlow && isFlowMark c then some []
    else (plainWord inFlow rest).map (c :: ·)

/-- A plain scalar that has been read. -/
structure PlainText where
  text : List Char
  /-- Whether line ends follow it. -/
  endsLine : Bool
  after : Cursor

/--
Reads on in a plain scalar after a gap. Its further lines begin at the column `least` or later
where that counts.
-/
def takePlain (inFlow : Bool) (least : Nat) : Nat → Gap → Cursor → Option PlainText
  | 0, _, _ => none
  | fuel + 1, gap, cursor =>
    let done : PlainText := ⟨[], gap.hasBreak, cursor⟩
    if cursor.isAtMark || cursor.rest.head? == some '#' then some done
    else match plainWord inFlow cursor.rest with
      | none => none
      | some [] => some done
      | some word =>
        match Gap.take least fuel .empty (cursor.advance word.length) with
        | none => none
        | some (next, after) =>
          if next.blanks.isEmpty && !next.hasBreak || !inFlow && after.column < least then
            some ⟨gap.text ++ word, next.hasBreak, after⟩
          else
            (takePlain inFlow least fuel next after).map fun later =>
              { later with text := gap.text ++ word ++ later.text }

end Switchboard.Yaml
