import Switchboard.Host.Update
import Switchboard.Text.Pieces

/-!
# The input of the service

Bytes are cut into lines at line feeds. Every line that is an update counts;
blank lines and lines that are none are passed over. A line that is not text
ends the input.
-/
namespace Switchboard.Host

def lineFeed : UInt8 := 10

def carriageReturn : UInt8 := 13

/-- The bytes of a line without the carriage return before its line feed. -/
def dropReturn (line : List UInt8) : List UInt8 :=
  if line.getLast? = some carriageReturn then line.dropLast else line

/-- The lines that line feeds end, and what follows the last line feed. -/
def cut (bytes : List UInt8) : List (List UInt8) × List UInt8 :=
  let parts := Text.pieces (· == lineFeed) bytes
  (parts.dropLast.map dropReturn, parts.getLast?.getD [])

/-- The lines of a whole input, the last of which need not be ended. -/
def lines (bytes : List UInt8) : List (List UInt8) :=
  match cut bytes with
  | (ended, []) => ended
  | (ended, last) => ended ++ [last]

/-- The text of a line, if it is text. -/
def textOf? (line : List UInt8) : Option String := String.fromUTF8? ⟨line.toArray⟩

/-- What a line of the input is. -/
inductive InputLine where
  | update (carried : Update)
  | blank
  | faulty (text : String) (fault : Fault)
  | noText

def InputLine.ofBytes (line : List UInt8) : InputLine :=
  match textOf? line with
  | none => .noText
  | some text =>
    match Update.ofLine text with
    | .ok (some carried) => .update carried
    | .ok none => .blank
    | .error fault => .faulty text fault

/-- What has been read: the updates, and whether a line that is no text ended the input. -/
structure Reading where
  updates : List Update
  failed : Bool

def Reading.after (update : Update) (reading : Reading) : Reading :=
  { reading with updates := update :: reading.updates }

/-- Reads lines up to the end or to one that is no text. -/
def readLines : List (List UInt8) → Reading
  | [] => ⟨[], false⟩
  | line :: rest =>
    match InputLine.ofBytes line with
    | .update update => (readLines rest).after update
    | .blank | .faulty .. => readLines rest
    | .noText => ⟨[], true⟩

/-- Reads input whose updates nobody takes: the first one ends it. -/
def readUntaken : List (List UInt8) → Reading
  | [] => ⟨[], false⟩
  | line :: rest =>
    match InputLine.ofBytes line with
    | .update _ => ⟨[], false⟩
    | .blank | .faulty .. => readUntaken rest
    | .noText => ⟨[], true⟩

end Switchboard.Host
