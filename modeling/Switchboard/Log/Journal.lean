import Switchboard.Log.Note
import Switchboard.Rule.Delivery
import Switchboard.Text.Pieces

/-!
# The journal

Everything that can be seen from outside while signals are processed, in one
order: notes for the service log, deliveries, lines of the logs that single
rules keep, and what watchers hear.
-/
namespace Switchboard

inductive Entry where
  | note (note : Note)
  | delivered (delivery : Delivery)
  /-- The log of a rule exists from now on, even if nothing is ever written to it. -/
  | ruleLog (directory : String)
  /-- A description with line breaks makes a line that reads as several. -/
  | ruleLine (directory : String) (line : String)
  | heard (watcher : String) (value : Json)

namespace Entry

def note? : Entry → Option Note
  | .note n => some n
  | _ => none

def delivery? : Entry → Option Delivery
  | .delivered delivery => some delivery
  | _ => none

def heard? : Entry → Option (String × Json)
  | .heard watcher value => some (watcher, value)
  | _ => none

/-- Adds lines to the log of a directory, which comes into being if necessary. -/
def extend (directory : String) (added : List String) :
    List (String × List String) → List (String × List String)
  | [] => [(directory, added)]
  | (other, lines) :: rest =>
    if other = directory then (other, lines ++ added) :: rest
    else (other, lines) :: extend directory added rest

/-- The logs of rules by directory, each as the lines that a reader of the file sees. -/
def ruleLogs (journal : List Entry) : List (String × List String) :=
  journal.foldl (fun logs entry =>
    match entry with
    | .ruleLog directory => extend directory [] logs
    | .ruleLine directory line => extend directory (Text.splitAt '\n' line) logs
    | _ => logs) []

end Entry

end Switchboard
