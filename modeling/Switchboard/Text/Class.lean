/-!
# Classes of characters

A class is given by the code points at which it begins and ends in turn, in
ascending order.
-/
namespace Switchboard.Text

/-- Whether a code point lies in the class with given bounds. -/
def isWithin (bounds : List Nat) (code : Nat) : Bool :=
  (bounds.takeWhile (· ≤ code)).length % 2 == 1

end Switchboard.Text
