import Switchboard.Json.Printer
import Switchboard.Log.Directory
import Switchboard.Log.Journal
import Switchboard.Rule.Action
import Switchboard.Text.Spelled

/-!
# Logs of single rules

Every rule may keep a log of what it fired, in a directory named after the
rule's key. The name is made of harmless characters only and neither begins
nor ends with a dot, so that it is always a direct child of the directory of
all rule logs. A rule whose directory cannot be made is left without a log.
-/
namespace Switchboard.RuleLog

def isHarmless (c : Char) : Bool := c.isAlphanum || c == '-' || c == '_' || c == '.'

/-- The text without the dots at its two ends. -/
def trimDots (text : List Char) : List Char :=
  ((text.dropWhile (· == '.')).reverse.dropWhile (· == '.')).reverse

/-- The directory name for a rule key. -/
def directoryName (key : String) : String :=
  match trimDots (key.toList.map fun c => if isHarmless c then c else '_') with
  | [] => "_"
  | name => String.ofList name

/-- The directory of all rule logs under a given one. -/
def rootUnder (directory : String) : String := pathWithin directory "rules"

/-- What is delivered, as a rule log shows it. -/
def deliveryText (mode : DeliveryMode) (path : String) (value : Json) : String :=
  mode.word ++ " " ++ path ++ " <= " ++ value.text

/-- The line of a log whose directory has a given name. -/
def line (directory description : String) (action : Action) (outcome : String) : String :=
  "[RULE] " ++ directory ++ " " ++ description ++ " | " ++ action.label ++ " | " ++ outcome

def nothingDelivered : String := "no delivery"

/-- The entry for a line in a log. -/
def lineEntry (directory description : String) (action : Action) (outcome : String) : Entry :=
  .ruleLine directory (line directory description action outcome)

/-- Where rule logs are kept, with what stands there already. -/
structure Site where
  root : String
  look : String → Presence

namespace Site

/-- The path of the directory of a log. -/
def path (site : Site) (directory : String) : String :=
  pathWithin (rootUnder site.root) directory

/-- What stands against a log. -/
def obstacle? (site : Site) (directory : String) : Option Obstacle :=
  Switchboard.obstacle? site.look (site.path directory)

/-- The entry for a log that is taken into use, or for what stands against it. -/
def opening (site : Site) (directory : String) : Option Obstacle → Entry
  | none => .ruleLog directory
  | some obstacle =>
    .note ⟨.warn, .ruleLog, "Log dir err " ++ Text.spelledOut (site.path directory) ++ ": " ++
      obstacle.message⟩

end Site

/-- The logs in use at a site, each with a number of its own. -/
structure Shelf where
  site : Site
  logs : List (String × Nat)
  nextNumber : Nat

/-- A log on a shelf, with the entries for taking it into use. -/
structure Place where
  directory : String
  number : Nat
  obstacle : Option Obstacle
  entries : List Entry

/-- The directory of a log that lines can be written to. -/
def Place.open? (place : Place) : Option String :=
  if place.obstacle.isNone then some place.directory else none

namespace Shelf

def empty (site : Site) : Shelf := ⟨site, [], 0⟩

/-- The log for a key, taken into use if necessary. -/
def get (shelf : Shelf) (key : String) : Shelf × Place :=
  let name := directoryName key
  let obstacle := shelf.site.obstacle? name
  match shelf.logs.lookup name with
  | some number => (shelf, ⟨name, number, obstacle, []⟩)
  | none =>
    ({ shelf with
        logs := (name, shelf.nextNumber) :: shelf.logs
        nextNumber := shelf.nextNumber + 1 },
      ⟨name, shelf.nextNumber, obstacle, [shelf.site.opening name obstacle]⟩)

/-- Puts the log for a key out of use. -/
def remove (shelf : Shelf) (key : String) : Shelf :=
  { shelf with logs := shelf.logs.filter (·.1 ≠ directoryName key) }

/-- Puts all logs out of use. -/
def clear (shelf : Shelf) : Shelf := { shelf with logs := [] }

end Shelf

end Switchboard.RuleLog
