/-!
# What stands at a path
-/
namespace Switchboard

inductive Presence where
  | nothing
  | directory
  | file (content : String)
  /-- A file whose content is no text. -/
  | unreadable
  deriving Repr, DecidableEq

end Switchboard
