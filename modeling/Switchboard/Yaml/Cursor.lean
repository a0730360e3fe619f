import Switchboard.Text.Bytes
import Switchboard.Text.Quoted

/-!
# Places in a YAML text

A cursor is what is still to be read of a text, with the place reached. Line
ends are one character each: `prepared` leaves a line feed of every kind of
them but the two separators of Unicode, which stay what they are.
-/
namespace Switchboard.Yaml

def nextLine : Char := Char.ofNat 0x85

def lineSeparator : Char := Char.ofNat 0x2028

def paragraphSeparator : Char := Char.ofNat 0x2029

/-- The characters that a text may hold. -/
def isAllowed (c : Char) : Bool :=
  let n := c.toNat
  n == 9 || n == 10 || n == 13 || (0x20 ≤ n && n ≤ 0x7E) || n == 0x85 ||
    (0xA0 ≤ n && n ≤ 0xFFFD) || 0x10000 ≤ n

/-- A line feed in place of every other line end of one or two characters. -/
def withLineFeeds : List Char → List Char
  | '\r' :: '\n' :: rest => '\n' :: withLineFeeds rest
  | c :: rest => (if c = '\r' ∨ c = nextLine then '\n' else c) :: withLineFeeds rest
  | [] => []

/-- A text as it is read; nothing if it holds characters that it must not. -/
def prepared (text : String) : Option (List Char) :=
  if text.toList.all isAllowed then some (withLineFeeds text.toList) else none

def isBreak (c : Char) : Bool := c == '\n' || c == lineSeparator || c == paragraphSeparator

def isBlank (c : Char) : Bool := c == ' ' || c == '\t'

/-- The characters of names: of anchors, of handles and of directives. -/
def isNameChar (c : Char) : Bool := c.isAlphanum || c == '-' || c == '_'

/-- Whether a text is at its end, at the end of a line or at a blank. -/
def atGap : List Char → Bool
  | [] => true
  | c :: _ => isBlank c || isBreak c

/-- Whether a text is at its end or at the end of a line. -/
def atLineEnd : List Char → Bool
  | [] => true
  | c :: _ => isBreak c

structure Cursor where
  rest : List Char
  line : Nat
  column : Nat
  /-- The number of bytes before the place. -/
  index : Nat

namespace Cursor

def start (text : List Char) : Cursor := ⟨text, 0, 0, 0⟩

/-- The place after the next character. -/
def next (cursor : Cursor) : Cursor :=
  match cursor.rest with
  | [] => cursor
  | c :: rest =>
    if isBreak c then ⟨rest, cursor.line + 1, 0, cursor.index + c.utf8Size⟩
    else ⟨rest, cursor.line, cursor.column + 1, cursor.index + c.utf8Size⟩

/-- The place some characters further on in the line. -/
def advance (n : Nat) (cursor : Cursor) : Cursor :=
  ⟨cursor.rest.drop n, cursor.line, cursor.column + n,
    cursor.index + Text.byteLength (cursor.rest.take n)⟩

/-- The characters of the line from here on that pass a test, and the place after them. -/
def takeWhile (test : Char → Bool) (cursor : Cursor) : List Char × Cursor :=
  let taken := cursor.rest.takeWhile fun c => test c && !isBreak c
  (taken, cursor.advance taken.length)

/-- The place after a byte order mark that begins the line here. -/
def skipMark (cursor : Cursor) : Cursor :=
  if cursor.column = 0 ∧ cursor.rest.head? = some Text.byteOrderMark then cursor.next else cursor

/-- The place after the blanks that stand here. -/
def skipBlanks (cursor : Cursor) : Cursor := (cursor.takeWhile isBlank).2

/-- The place at the end of the line if a comment stands here. -/
def skipComment (cursor : Cursor) : Cursor :=
  match cursor.rest with
  | '#' :: _ => (cursor.takeWhile fun _ => true).2
  | _ => cursor

/-- The beginning of the next line, if nothing but blanks and a comment are left of this one. -/
def endLine? (cursor : Cursor) : Option Cursor :=
  let there := cursor.skipBlanks.skipComment
  if atLineEnd there.rest then some there.next else none

/-- Whether three given characters stand alone at the beginning of a line. -/
def isAt (mark : List Char) (cursor : Cursor) : Bool :=
  cursor.column == 0 && mark.isPrefixOf cursor.rest && atGap (cursor.rest.drop mark.length)

def startMark : List Char := ['-', '-', '-']

def endMark : List Char := ['.', '.', '.']

/-- Whether a document begins or ends here. -/
def isAtMark (cursor : Cursor) : Bool := cursor.isAt startMark || cursor.isAt endMark

end Cursor

end Switchboard.Yaml
