import Switchboard.Text.Hidden

/-!
# Text spelled out

A text in double quotes in which nothing is left to guess: quotes, backslashes
and line ends are escaped, and characters that are not seen are written as
their code points.
-/
namespace Switchboard.Text

/-- A character of a text that is spelled out. -/
def spelling (c : Char) : List Char :=
  if c = '"' ∨ c = '\\' then ['\\', c]
  else if c = '\n' then ['\\', 'n']
  else if c = '\r' then ['\\', 'r']
  else if c = '\t' then ['\\', 't']
  else if c.toNat = 0 then ['\\', '0']
  else if isHidden c then ['\\', 'u', '\x7b'] ++ Nat.toDigits 16 c.toNat ++ ['\x7d']
  else [c]

/-- A text spelled out in quotes. -/
def spelledOut (text : String) : String :=
  String.ofList ('"' :: (text.toList.flatMap spelling ++ ['"']))

end Switchboard.Text
