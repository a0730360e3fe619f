/-!
# Text patterns

A pattern describes texts: characters and sets of them one after the other,
repeated, grouped, or with others to choose from. Only the form of a pattern is
kept here. It tells how deep its parts are nested and whether it asks for the
ends of words, which are the two things that can speak against a pattern that
is written well.
-/
namespace Switchboard

/-- What stands in brackets. -/
inductive CharSet where
  /-- A character, a range, a class of characters, or nothing. -/
  | simple
  | bracketed (content : CharSet)
  | union (parts : List CharSet)
  /-- Two sets with an operator between them. -/
  | combined (left right : CharSet)

namespace CharSet

def ofParts : List CharSet → CharSet
  | [] => .simple
  | [part] => part
  | parts => .union parts

mutual

/-- The number of parts inside each other. -/
def depth : CharSet → Nat
  | .simple => 0
  | .bracketed content => content.depth + 1
  | .union parts => depths parts + 1
  | .combined left right => max left.depth right.depth + 1

def depths : List CharSet → Nat
  | [] => 0
  | part :: rest => max part.depth (depths rest)

end

end CharSet

inductive Pattern where
  | empty
  /-- A change in how the rest is read. -/
  | setting
  /-- One character of some kind. -/
  | one
  /-- A condition on the place; `wordy` where it is about words of any script. -/
  | place (wordy : Bool)
  | set (content : CharSet)
  | repeated (body : Pattern)
  | group (body : Pattern)
  | sequence (parts : List Pattern)
  | choice (branches : List Pattern)

namespace Pattern

def ofParts : List Pattern → Pattern
  | [] => .empty
  | [part] => part
  | parts => .sequence parts

def ofBranches : List Pattern → Pattern
  | [branch] => branch
  | branches => .choice branches

/-- Whether a sign of repetition may follow. -/
def isRepeatable : Pattern → Bool
  | .empty | .setting => false
  | _ => true

mutual

/-- The number of parts inside each other. -/
def depth : Pattern → Nat
  | .empty | .setting | .one | .place _ => 0
  | .set content => content.depth + 1
  | .repeated body | .group body => body.depth + 1
  | .sequence parts | .choice parts => depths parts + 1

def depths : List Pattern → Nat
  | [] => 0
  | part :: rest => max part.depth (depths rest)

end

mutual

/-- Whether some condition is about words of any script. -/
def usesWords : Pattern → Bool
  | .empty | .setting | .one | .set _ => false
  | .place wordy => wordy
  | .repeated body | .group body => body.usesWords
  | .sequence parts | .choice parts => anyUsesWords parts

def anyUsesWords : List Pattern → Bool
  | [] => false
  | part :: rest => part.usesWords || anyUsesWords rest

end

end Pattern

end Switchboard
