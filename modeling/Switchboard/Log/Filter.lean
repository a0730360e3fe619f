import Switchboard.Log.Directive

/-!
# Log filters

A filter is a row of directives. Of those whose target begins the name of a
note's origin the longest one decides, among those the ones with a field before
the ones without, and of several equal ones the last. A note belongs to no span
and has one field, its message; directives on spans or on the value of a field
therefore concern no note.
-/
namespace Switchboard

namespace Directive

/-- The field that every note has. -/
def messageField : String := "message"

/-- Whether a directive is about notes of a given origin. -/
def concerns (directive : Directive) (origin : Origin) : Bool :=
  !directive.spanned &&
    directive.field.all (fun field => !field.valued && field.name == messageField) &&
    directive.target.all fun target => target.toList.isPrefixOf origin.target.toList

/-- Whether a directive says less closely than another one what it is about. -/
def isLooser (a b : Directive) : Bool :=
  let length (directive : Directive) : Nat := match directive.target with
    | none => 0
    | some target => target.utf8ByteSize + 1
  length a < length b || length a == length b && a.field.isNone && b.field.isSome

end Directive

structure Filter where
  directives : List Directive
  deriving Repr, DecidableEq

namespace Filter

/-- The directives of a text, with those that are faulty. -/
def read (text : String) : List (Except DirectiveFault Directive × String) :=
  ((Text.pieces (· == ',') text.toList).filter (!·.isEmpty)).map fun piece =>
    (Directive.ofText piece, String.ofList piece)

/-- The filter that a text describes. Without any directive errors are written. -/
def ofText (text : String) : Filter :=
  let directives := (read text).filterMap (·.1.toOption)
  if directives.isEmpty then ⟨[⟨none, false, none, Level.error.rank⟩]⟩ else ⟨directives⟩

/-- The character inside which a directive would have to be cut. -/
def split? : Except DirectiveFault Directive × String → Option Text.SplitChar
  | (.error (.split cut), _) => some cut
  | _ => none

/-- Where the reading of a text breaks off because a directive cannot be cut. -/
def brokenOff? (text : String) : Option Text.SplitChar := (read text).findSome? split?

/-- What is said about a faulty directive. -/
def complaint? : Except DirectiveFault Directive × String → Option String
  | (.error fault, piece) => some ("ignoring `" ++ piece ++ "`: " ++ fault.message)
  | (.ok _, _) => none

/-- What is said about the faulty directives of a text, as far as it is read. -/
def complaints (text : String) : List String :=
  ((read text).takeWhile fun directive => (split? directive).isNone).filterMap complaint?

/-- The closer of two directives; of two equal ones the later one. -/
def closer (best : Option Directive) (next : Directive) : Option Directive :=
  match best with
  | none => some next
  | some best => if next.isLooser best then some best else some next

/-- The directive that decides about notes of an origin. -/
def deciding? (filter : Filter) (origin : Origin) : Option Directive :=
  (filter.directives.filter (·.concerns origin)).foldl closer none

/-- Whether a note is written. -/
def admits (filter : Filter) (note : Note) : Bool :=
  match filter.deciding? note.origin with
  | some directive => note.level.rank ≤ directive.rank
  | none => false

end Filter

end Switchboard
