import Switchboard.Yaml.Block
import Switchboard.Yaml.Property
import Switchboard.Yaml.Quoted

/-!
# Tokens of YAML

Indentation is turned into tokens: a collection opens where something stands
deeper than the collection around it, and closes where something stands less
deep. A key is known as one only when its colon is reached; its token is then
put in front of what has been read of it. That colon has to stand on the line
on which the key begins and not too far from there.
-/
namespace Switchboard.Yaml

inductive Token where
  | directive (directive : Directive)
  | documentStart
  | documentEnd
  | blockList
  | blockTable
  | blockEnd
  | openList
  | closeList
  | openTable
  | closeTable
  | comma
  | dash
  | key
  | value
  | alias (name : String)
  | anchor (name : String)
  | tag (tag : Tag)
  | scalar (plain : Bool) (text : String)
  deriving DecidableEq

/-- The beginning of what may turn out to be a key. -/
structure Candidate where
  /-- The number of tokens before it. -/
  position : Nat
  place : Cursor
  /-- Whether nothing but a key can stand there. -/
  required : Bool

/-- A text while it is cut into tokens. -/
structure Scanner where
  cursor : Cursor
  /-- The latest token comes first. -/
  tokens : List Token
  /-- The columns of the open collections, from the inside. -/
  columns : List Nat
  /-- A candidate for each open bracket, from the inside, and one for outside of all brackets. -/
  candidates : List (Option Candidate)
  /-- Whether a key may begin here. -/
  keyAllowed : Bool

namespace Scanner

def start (text : List Char) : Scanner := ⟨.start text, [], [], [none], true⟩

def inFlow (s : Scanner) : Bool := 1 < s.candidates.length

/-- The column at which something belongs to the innermost collection as one of its parts. -/
def least (s : Scanner) : Nat :=
  match s.columns with
  | [] => 0
  | column :: _ => column + 1

def write (token : Token) (s : Scanner) : Scanner := { s with tokens := token :: s.tokens }

/-- Writes a token for characters that are left behind. -/
def pass (length : Nat) (token : Token) (s : Scanner) : Scanner :=
  { s.write token with cursor := s.cursor.advance length }

def allowKey (allowed : Bool) (s : Scanner) : Scanner := { s with keyAllowed := allowed }

/-! ### Collections -/

/-- Closes the collections that stand deeper than a column. -/
def closeTo (least : Nat) : List Nat → List Token → List Nat × List Token
  | column :: columns, tokens =>
    if least ≤ column then closeTo least columns (.blockEnd :: tokens)
    else (column :: columns, tokens)
  | [], tokens => ([], tokens)

/-- Closes the collections that something at a column does not belong to. -/
def close (least : Nat) (s : Scanner) : Scanner :=
  if s.inFlow then s
  else
    let (columns, tokens) := closeTo least s.columns s.tokens
    { s with columns := columns, tokens := tokens }

/-- Whether something at a column opens a collection. -/
def opensAt (column : Nat) (s : Scanner) : Bool := !s.inFlow && s.columns.all (· < column)

/-- Opens a collection here if something that stands here does so. -/
def openHere (token : Token) (s : Scanner) : Scanner :=
  if s.opensAt s.cursor.column then
    { s.write token with columns := s.cursor.column :: s.columns }
  else s

/-! ### Keys -/

/-- The greatest number of bytes from the beginning of a key to its colon. -/
def keyLimit : Nat := 1024

/--
The candidate, if the cursor is not too far from it; nothing if it would have had to be a key.
-/
def fresh? (cursor : Cursor) : Option Candidate → Option (Option Candidate)
  | none => some none
  | some candidate =>
    if candidate.place.line = cursor.line ∧ cursor.index ≤ candidate.place.index + keyLimit then
      some (some candidate)
    else if candidate.required then none
    else some none

/-- Forgets the candidates that can no longer be keys. -/
def refresh (s : Scanner) : Option Scanner :=
  (s.candidates.mapM (fresh? s.cursor)).map fun candidates => { s with candidates := candidates }

/-- Replaces the innermost candidate, which must not have had to be a key. -/
def replaceCandidate (candidate : Option Candidate) (s : Scanner) : Option Scanner :=
  match s.candidates with
  | [] => none
  | old :: outer =>
    if old.any (·.required) then none else some { s with candidates := candidate :: outer }

def dropCandidate (s : Scanner) : Option Scanner := s.replaceCandidate none

/-- Remembers that a key may begin here. -/
def markCandidate (s : Scanner) : Option Scanner :=
  if s.keyAllowed then
    let required := !s.inFlow && s.columns.head? == some s.cursor.column
    s.replaceCandidate (some ⟨s.tokens.length, s.cursor, required⟩)
  else some s

/-- Puts tokens, the latest first, in front of those after a position. -/
def insertAt (position : Nat) (added tokens : List Token) : List Token :=
  let later := tokens.length - position
  tokens.take later ++ added ++ tokens.drop later

/-- Makes a key of the innermost candidate. -/
def makeKey (candidate : Candidate) (s : Scanner) : Scanner :=
  let opened := s.opensAt candidate.place.column
  { s with
    tokens := insertAt candidate.position (if opened then [.key, .blockTable] else [.key]) s.tokens
    columns := if opened then candidate.place.column :: s.columns else s.columns
    candidates := none :: s.candidates.drop 1 }

/-! ### Single tokens -/

/-- A mark between documents. -/
def takeMark (token : Token) (s : Scanner) : Option Scanner :=
  (s.close 0).dropCandidate.map fun s => (s.allowKey false).pass 3 token

def takeDirective (s : Scanner) : Option Scanner :=
  (s.close 0).dropCandidate.bind fun s =>
    (directive? s.cursor).map fun (directive, after) =>
      { (s.allowKey false).write (.directive directive) with cursor := after }

def takeOpening (token : Token) (s : Scanner) : Option Scanner :=
  s.markCandidate.map fun s =>
    ({ s with candidates := none :: s.candidates }.allowKey true).pass 1 token

def takeClosing (token : Token) (s : Scanner) : Option Scanner :=
  s.dropCandidate.map fun s =>
    let outer := if s.inFlow then s.candidates.drop 1 else s.candidates
    ({ s with candidates := outer }.allowKey false).pass 1 token

def takeComma (s : Scanner) : Option Scanner :=
  s.dropCandidate.map fun s => (s.allowKey true).pass 1 .comma

def takeDash (s : Scanner) : Option Scanner :=
  if !s.inFlow && !s.keyAllowed then none
  else (s.openHere .blockList).dropCandidate.map fun s => (s.allowKey true).pass 1 .dash

def takeKey (s : Scanner) : Option Scanner :=
  if !s.inFlow && !s.keyAllowed then none
  else (s.openHere .blockTable).dropCandidate.map fun s => (s.allowKey !s.inFlow).pass 1 .key

def takeValue (s : Scanner) : Option Scanner :=
  match s.candidates with
  | some candidate :: _ => some (((s.makeKey candidate).allowKey false).pass 1 .value)
  | _ =>
    if !s.inFlow && !s.keyAllowed then none
    else some (((s.openHere .blockTable).allowKey !s.inFlow).pass 1 .value)

def takeAnchor (token : String → Token) (s : Scanner) : Option Scanner :=
  s.markCandidate.bind fun s =>
    (anchorName? s.cursor).map fun (name, after) =>
      { (s.allowKey false).write (token name) with cursor := after }

def takeTag (s : Scanner) : Option Scanner :=
  s.markCandidate.bind fun s =>
    (tag? s.inFlow s.cursor).map fun (tag, after) =>
      { (s.allowKey false).write (.tag tag) with cursor := after }

def takeBlock (literal : Bool) (fuel : Nat) (s : Scanner) : Option Scanner :=
  s.dropCandidate.bind fun s =>
    (blockText? literal s.columns.head? fuel s.cursor).map fun (text, after) =>
      { (s.allowKey true).write (.scalar false (String.ofList text)) with cursor := after }

def takeQuoted (quotes : Quotes) (fuel : Nat) (s : Scanner) : Option Scanner :=
  s.markCandidate.bind fun s =>
    (Yaml.takeQuoted quotes fuel s.cursor.next).map fun (text, after) =>
      { (s.allowKey false).write (.scalar false (String.ofList text)) with cursor := after }

def takePlain (fuel : Nat) (s : Scanner) : Option Scanner :=
  s.markCandidate.bind fun s =>
    (Yaml.takePlain s.inFlow s.least fuel .empty s.cursor).map fun plain =>
      { (s.allowKey plain.endsLine).write (.scalar true (String.ofList plain.text)) with
        cursor := plain.after }

/-! ### All tokens -/

/--
Goes to where the next token begins. Tabs do not count where they could be indentation. A byte
order mark at the beginning of a line is passed over but takes up a column.
-/
def seek : Nat → Scanner → Scanner
  | 0, s => s
  | fuel + 1, s =>
    let tabs := s.inFlow || !s.keyAllowed
    let blank (c : Char) : Bool := c == ' ' || (tabs && c == '\t')
    let there := (s.cursor.skipMark.takeWhile blank).2.skipComment
    match there.rest with
    | [] => { s with cursor := there }
    | c :: _ =>
      if isBreak c then
        seek fuel { s with cursor := there.next, keyAllowed := s.keyAllowed || !s.inFlow }
      else { s with cursor := there }

/-- Takes the token that begins here. -/
def take (fuel : Nat) (s : Scanner) : Option Scanner :=
  match s.cursor.rest with
  | [] => none
  | c :: rest =>
    if s.cursor.column = 0 ∧ c = '%' then s.takeDirective
    else if s.cursor.isAt Cursor.startMark then s.takeMark .documentStart
    else if s.cursor.isAt Cursor.endMark then s.takeMark .documentEnd
    else if c = '[' then s.takeOpening .openList
    else if c = '\x7b' then s.takeOpening .openTable
    else if c = ']' then s.takeClosing .closeList
    else if c = '\x7d' then s.takeClosing .closeTable
    else if c = ',' then s.takeComma
    else if c = '-' ∧ atGap rest then s.takeDash
    else if c = '?' ∧ (s.inFlow ∨ atGap rest) then s.takeKey
    else if c = ':' ∧ (s.inFlow ∨ atGap rest) then s.takeValue
    else if c = '*' then s.takeAnchor .alias
    else if c = '&' then s.takeAnchor .anchor
    else if c = '!' then s.takeTag
    else if c = '|' ∧ !s.inFlow then s.takeBlock true fuel
    else if c = '>' ∧ !s.inFlow then s.takeBlock false fuel
    else if c = '\'' then s.takeQuoted .single fuel
    else if c = '"' then s.takeQuoted .double fuel
    else if beginsPlain s.inFlow s.cursor.rest then s.takePlain fuel
    else none

/-- The tokens up to the end of the text, which is shorter than `fuel`, as is every token. -/
def run : Nat → Scanner → Option (List Token)
  | 0, _ => none
  | fuel + 1, s =>
    match (s.seek (fuel + 1)).refresh with
    | none => none
    | some s =>
      if s.cursor.rest.isEmpty then
        (s.close 0).dropCandidate.map fun s => s.tokens.reverse
      else
        match (s.close (s.cursor.column + 1)).take (fuel + 1) with
        | none => none
        | some s => run fuel s

end Scanner

/-- The tokens of a text. -/
def tokens? (text : String) : Option (List Token) :=
  (prepared text).bind fun text => (Scanner.start text).run (text.length + 1)

end Switchboard.Yaml
