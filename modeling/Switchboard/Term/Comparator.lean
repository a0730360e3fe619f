import Switchboard.Signal.Coercion

/-!
# Comparisons of a signal with an operand

The type of the signal's value decides the order: numbers and truth values
compare as numbers if the operand is a number, everything else compares as
text. Null satisfies no comparison.
-/
namespace Switchboard

inductive Comparator where
  | eq
  | ne
  | lt
  | le
  | gt
  | ge
  deriving Repr, DecidableEq

namespace Comparator

def all : List Comparator := [.eq, .ne, .lt, .le, .gt, .ge]

def word : Comparator → String
  | .eq => "eq"
  | .ne => "ne"
  | .lt => "lt"
  | .le => "le"
  | .gt => "gt"
  | .ge => "ge"

/-- The comparator that a word names. -/
def ofWord? (word : String) : Option Comparator := all.find? (·.word == word)

/-- Whether a comparison holds of two things in a given order. -/
def holds : Comparator → Ordering → Bool
  | .eq, order => order == .eq
  | .ne, order => order != .eq
  | .lt, order => order == .lt
  | .le, order => order != .gt
  | .gt, order => order == .gt
  | .ge, order => order != .lt

/-- The order of texts by code points. -/
def textOrder (a b : String) : Ordering := compare a b

/-- How a value stands to an operand; null stands in no order to anything. -/
def order? (value : Json) (operand : String) : Option Ordering :=
  match value with
  | .null => none
  | .int _ | .float _ | .bool _ =>
    match value.number?, numberOfText? operand with
    | some a, some b => some (a.compare b)
    | _, _ => some (textOrder value.plainText operand)
  | _ => some (textOrder value.plainText operand)

/-- Whether a value satisfies a comparison with an operand. -/
def test (comparator : Comparator) (value : Json) (operand : String) : Bool :=
  match order? value operand with
  | some order => comparator.holds order
  | none => false

end Comparator

end Switchboard
