import Switchboard.Presence
import Switchboard.Text.Pieces

/-!
# Directories for logs

A directory is made together with all directories above it that do not exist.
Files on the way and names that are too long stand against that; of several
obstacles the one nearest to the root is met first.
-/
namespace Switchboard

/-- Why a directory cannot be made. -/
inductive Obstacle where
  /-- A file has the name of the directory. -/
  | file
  /-- A file has the name of a directory above it. -/
  | fileAbove
  | longName
  | zeroCharacter
  deriving Repr, DecidableEq

def Obstacle.message : Obstacle → String
  | .file => "File exists (os error 17)"
  | .fileAbove => "Not a directory (os error 20)"
  | .longName => "File name too long (os error 36)"
  | .zeroCharacter => "file name contained an unexpected NUL byte"

/-- The greatest number of bytes in the name of a directory. -/
def nameLimit : Nat := 255

/-- The greatest number of bytes in a path. -/
def pathLimit : Nat := 4095

def isLongName (name : String) : Bool := nameLimit < name.utf8ByteSize

/-- The path of what has a given name in a directory. -/
def pathWithin (directory name : String) : String :=
  if directory = "" ∨ directory.toList.getLast? = some '/' then directory ++ name
  else directory ++ "/" ++ name

/-- The names on the way down from a directory, each with its path. -/
def descentFrom (above : String) : List String → List (String × String)
  | [] => []
  | name :: rest =>
    (name, pathWithin above name) :: descentFrom (pathWithin above name) rest

/-- The names on the way down to the directory of a path, each with its path. -/
def descent (path : String) : List (String × String) :=
  descentFrom (if path.toList.head? = some '/' then "/" else "")
    ((Text.splitAt '/' path).filter (· ≠ ""))

/-- The first obstacle on a way down; `look` tells what there is already. -/
def obstacleOn? (look : String → Presence) : List (String × String) → Option Obstacle
  | [] => none
  | (name, path) :: rest =>
    if isLongName name then some .longName
    else match look path with
      | .nothing | .directory => obstacleOn? look rest
      | .file _ | .unreadable => some (if rest.isEmpty then .file else .fileAbove)

/-- What stands against making the directory of a path. -/
def obstacle? (look : String → Presence) (path : String) : Option Obstacle :=
  if path.toList.contains (Char.ofNat 0) then some .zeroCharacter
  else if pathLimit < path.utf8ByteSize then some .longName
  else obstacleOn? look (descent path)

end Switchboard
