import Switchboard.Json.Printer

/-!
# JSON text over several lines

Every item stands on a line of its own, two blanks deeper than the brackets
around it. Lists and objects without items stay on one line.
-/
namespace Switchboard.Json

/-- The blanks before a line. -/
def indent (depth : Nat) : List Char := List.replicate (2 * depth) ' '

/-- Written items one below the other. -/
def stacked (depth : Nat) : List (List Char) → List Char
  | [] => []
  | [item] => indent depth ++ item ++ ['\n']
  | item :: next :: rest => indent depth ++ item ++ [',', '\n'] ++ stacked depth (next :: rest)

/-- Written items between brackets that stand `depth` levels deep. -/
def block (opening closing : Char) (depth : Nat) (items : List (List Char)) : List Char :=
  if items.isEmpty then [opening, closing]
  else [opening, '\n'] ++ stacked (depth + 1) items ++ indent depth ++ [closing]

/-- A list of written items. -/
def listBlock (depth : Nat) (items : List (List Char)) : List Char := block '[' ']' depth items

/-- An object of written values, in the order given. -/
def objectBlock (depth : Nat) (members : List (String × List Char)) : List Char :=
  block '\x7b' '\x7d' depth (members.map fun (name, value) => quote name ++ [':', ' '] ++ value)

end Switchboard.Json
