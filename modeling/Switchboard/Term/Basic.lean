import Switchboard.Text.Pieces
import Switchboard.Term.Comparator
import Switchboard.Rule.Error

/-!
# Terms

A term is one operand of a rule: a constant, a switch, a notification, or the
signal at a path with an optional comparison or substitution. The written
forms are tried in this order.

* the empty text, `off`, `false`, `0`: off; `on`, `true`, `1`: on
* `[instance,channel]` and `[channel]`: a switch
* `notifications.…[:on state[:off state[:message[:methods]]]]`: a notification
* `path`, `path:value`, `path:comparator:value`, `path:on value:off value`
-/
namespace Switchboard

/-- How the signal at a path is read. -/
inductive PathTest where
  | present
  | compare (comparator : Comparator) (operand : String)
  | substitute (onValue offValue : String)
  deriving Repr, DecidableEq

inductive Term where
  | off
  | on
  | switch (bank : Option String) (channel : String)
  | notification (path : String) (onState offState message : Option String) (methods : List String)
  | signal (path : String) (test : PathTest)
  deriving Repr, DecidableEq

namespace Term

def kind : Term → String
  | .off => "off"
  | .on => "on"
  | .switch .. => "switch"
  | .notification .. => "notification"
  | .signal .. => "path"

/-- The path of the signal that a term is about. -/
def path? : Term → Option String
  | .off | .on => none
  | .switch (some bank) channel =>
    some ("electrical.switches.bank." ++ bank ++ "." ++ channel ++ ".state")
  | .switch none channel => some ("electrical.switches." ++ channel ++ ".state")
  | .notification path .. => some path
  | .signal path _ => some path

def path (term : Term) : String := term.path?.getD ""

/-- The text cut at its last comma that has something behind it. -/
def cutAtLastComma : List Char → Option (List Char × List Char)
  | [] => none
  | c :: rest =>
    match cutAtLastComma rest with
    | some (before, after) => some (c :: before, after)
    | none => if c = ',' ∧ rest ≠ [] then some ([], rest) else none

/-- The two parts of a bank switch, the first being as long as possible and neither empty. -/
def cutBank : List Char → Option (List Char × List Char)
  | [] => none
  | c :: rest => (cutAtLastComma rest).map fun (before, after) => (c :: before, after)

/-- The text between brackets, if it is not empty and lies on one line. -/
def bracketed? : List Char → Option (List Char)
  | '[' :: rest =>
    match rest.reverse with
    | ']' :: c :: inner => if '\n' ∈ c :: inner then none else some (c :: inner).reverse
    | _ => none
  | _ => none

def switchOf (inner : List Char) : Term :=
  match cutBank inner with
  | some (bank, channel) => .switch (some (String.ofList bank)) (String.ofList channel)
  | none => .switch none (String.ofList inner)

/-- An optional segment; an empty one counts as absent. -/
def segment? (s : String) : Option String := if s = "" then none else some s

def notificationRoot : String := "notifications."

def notificationOf? : List String → Option Term
  | [path] => some (.notification path none none none [])
  | [path, onState] => some (.notification path (segment? onState) none none [])
  | [path, onState, offState] =>
    some (.notification path (segment? onState) (segment? offState) none [])
  | [path, onState, offState, message] =>
    some (.notification path (segment? onState) (segment? offState) (segment? message) [])
  | [path, onState, offState, message, methods] =>
    some (.notification path (segment? onState) (segment? offState) (segment? message)
      ((Text.splitAt ',' methods).filter (· ≠ "")))
  | _ => none

def signalOf? : List String → Option Term
  | "" :: _ => none
  | [path] => some (.signal path .present)
  | [path, value] => some (.signal path (.compare .eq value))
  | [path, middle, last] =>
    match Comparator.ofWord? middle with
    | some comparator => some (.signal path (.compare comparator last))
    | none => some (.signal path (.substitute middle last))
  | _ => none

/-- The term that a text stands for. -/
def ofText? (text : String) : Option Term :=
  if text ∈ ["", "off", "false", "0"] then some .off
  else if text ∈ ["on", "true", "1"] then some .on
  else match bracketed? text.toList with
    | some inner => some (switchOf inner)
    | none =>
      let segments := Text.splitAt ':' text
      if notificationRoot.toList.isPrefixOf text.toList then notificationOf? segments
      else signalOf? segments

/-- The term that a text stands for, or why there is none. -/
def parse (text : String) : Except RuleError Term :=
  match ofText? text with
  | some term => .ok term
  | none => .error (.undefinedTerm text)

end Term

end Switchboard
