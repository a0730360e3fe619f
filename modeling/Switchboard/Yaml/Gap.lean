import Switchboard.Yaml.Cursor

/-!
# Gaps between words

A scalar may extend over several lines. Between two words of one line the
blanks stay as they are. A single line end between them becomes a blank; of
several the first one goes, and so do all blanks around them.
-/
namespace Switchboard.Yaml

structure Gap where
  /-- The blanks before the first line end. -/
  blanks : List Char
  breaks : List Char

namespace Gap

/-- What a gap contributes to the text. -/
def text (gap : Gap) : List Char :=
  match gap.breaks with
  | [] => gap.blanks
  | ['\n'] => [' ']
  | '\n' :: more => more
  | breaks => breaks

def hasBreak (gap : Gap) : Bool := !gap.breaks.isEmpty

/--
The gap that stands here and the place after it. After a line end no tab may
stand before the column `least`.
-/
def take (least : Nat) : Nat → Gap → Cursor → Option (Gap × Cursor)
  | 0, _, _ => none
  | fuel + 1, gap, cursor =>
    match cursor.rest with
    | [] => some (gap, cursor)
    | c :: _ =>
      if isBreak c then take least fuel ⟨gap.blanks, gap.breaks ++ [c]⟩ cursor.next
      else if !isBlank c then some (gap, cursor)
      else if !gap.hasBreak then take least fuel ⟨gap.blanks ++ [c], gap.breaks⟩ cursor.next
      else if c = '\t' ∧ cursor.column < least then none
      else take least fuel gap cursor.next

/-- The gap with nothing in it. -/
def empty : Gap := ⟨[], []⟩

end Gap

end Switchboard.Yaml
