import Switchboard.Bus.Line
import Switchboard.Term.Basic

/-!
# Streams of terms

Every term has a stream of truth values. Values that are no bit for the term
are left out, and so are repetitions; where nothing has been published yet,
switches, plain paths, substitutions and notifications begin with off.
-/
namespace Switchboard

/-- A stream over the lines of a bus whose remarks go to the journal. -/
abbrev BusStream (α : Type) := Stream Line Json Entry α

namespace Term

/-- Whether a notification's value says that it is raised. -/
def isRaised (onState : Option String) (value : Json) : Bool :=
  value.truthy &&
    match onState with
    | some state => (value.member? "state").bind Json.string? == some state
    | none => true

/-- The bit of a value under a substitution. -/
def substituted? (onValue offValue : String) (value : Json) : Option Bool :=
  if value.matchesLiteral onValue then some true
  else if value.matchesLiteral offValue then some false
  else value.bit?

/--
The bits of a line as `read` reads them, beginning with zero where nothing has been published.
-/
def bitsFromZero (line : Line) (read : Json → Option Bool) : BusStream Bool :=
  .filterMap read (.property (.int 0) (.subject line))

/-- The truth values of a term with their repetitions. -/
def bits (bus : Bus) (term : Term) : BusStream Bool :=
  let line := bus.line term.path
  match term with
  | .off => .constant false
  | .on => .constant true
  | .switch .. | .signal _ .present => bitsFromZero line Json.bit?
  | .notification _ onState _ _ _ => .property false (Stream.map (isRaised onState) (.subject line))
  | .signal _ (.compare comparator operand) =>
    Stream.map (comparator.test · operand) (.subject line)
  | .signal _ (.substitute onValue offValue) =>
    bitsFromZero line (substituted? onValue offValue)

def bitText (b : Bool) : String := if b then "1" else "0"

/-- The note on a new truth value of a term. -/
def issuing (term : Term) (b : Bool) : Entry :=
  .note ⟨.debug, .term, term.kind ++ " stream " ++ term.path ++ " issuing " ++ bitText b⟩

/-- The truth values of a term. -/
def stream (bus : Bus) (term : Term) : BusStream Bool :=
  .tap term.issuing (.distinct inferInstance (term.bits bus))

end Term

end Switchboard
