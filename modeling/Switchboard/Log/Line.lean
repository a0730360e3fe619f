import Switchboard.Log.Note
import Switchboard.Json.Printer

/-!
# Lines of the service log

A line shows the level of a note in brackets and its text. Control characters
that a terminal might obey are spelled out. On a terminal the level has a
colour.
-/
namespace Switchboard

/-- The escape character. -/
def escapeChar : Char := Char.ofNat 27

/-- The code of a level's colour on a terminal. -/
def Level.colour : Level → String
  | .trace => "35"
  | .debug => "34"
  | .info => "32"
  | .warn => "33"
  | .error => "31"

/-- The control characters that are written as two hexadecimal digits. -/
def isTerminalControl (c : Char) : Bool := [7, 8, 12, 27, 127].contains c.toNat

/-- A character of a note as it is written. -/
def spelledOut (c : Char) : List Char :=
  if isTerminalControl c then
    ['\\', 'x', Json.hexDigit (c.toNat / 16), Json.hexDigit (c.toNat % 16)]
  else if 0x80 ≤ c.toNat ∧ c.toNat < 0xA0 then
    ['\\', 'u', '\x7b', Json.hexDigit (c.toNat / 16), Json.hexDigit (c.toNat % 16), '\x7d']
  else [c]

namespace Note

def bracketed (note : Note) : String := "[" ++ note.level.word ++ "]"

def spelled (note : Note) : String := String.ofList (note.text.toList.flatMap spelledOut)

/-- The line for a file. -/
def line (note : Note) : String := note.bracketed ++ " " ++ note.spelled

/-- The line for a terminal. -/
def colouredLine (note : Note) : String :=
  let start := String.ofList [escapeChar, '[']
  start ++ note.level.colour ++ "m" ++ note.bracketed ++ start ++ "0m " ++ note.spelled

end Note

end Switchboard
