import Switchboard.Config.Setting
import Switchboard.Presence
import Switchboard.Text.Pieces
import Switchboard.Toml.Document
import Switchboard.Yaml.Document

/-!
# Configuration files

A configuration file is read as the format that the end of its name tells:
what follows the last point of the file name, unless that point begins it. A
directory of such a name counts as a file without settings.
-/
namespace Switchboard

inductive FileFormat where
  | json
  | yaml
  | toml
  deriving Repr, DecidableEq

namespace FileFormat

def ofExtension? (extension : String) : Option FileFormat :=
  if extension = "toml" then some .toml
  else if extension = "yaml" ∨ extension = "yml" then some .yaml
  else if extension = "json" then some .json
  else none

def setting? : FileFormat → String → Option Setting
  | .json, text => (Json.ofText? text).map .ofJson
  | .yaml, text => Yaml.ofText? text
  | .toml, text => Toml.ofText? text

/-- The settings in a text, which have to be a table. -/
def settings? (format : FileFormat) (text : String) : Option Setting :=
  match format.setting? text with
  | some (.table members) => (Setting.unwrapMembers? members).map .table
  | _ => none

end FileFormat

/-- A path with what stands there. -/
structure ConfigFile where
  path : String
  presence : Presence
  deriving Repr, DecidableEq

namespace ConfigFile

/-- The last part of a path, if it names a file. -/
def name? (path : String) : Option (List Char) :=
  let parts := (Text.pieces (· == '/') path.toList).filter fun part => !part.isEmpty && part ≠ ['.']
  parts.getLast?.filter (· ≠ ['.', '.'])

/-- What follows the last point of a file name, if anything stands before that point. -/
def extensionOf? (name : List Char) : Option String :=
  let back := name.reverse
  match back.dropWhile (· ≠ '.') with
  | _ :: _ :: _ => some (String.ofList (back.takeWhile (· ≠ '.')).reverse)
  | _ => none

def extension? (file : ConfigFile) : Option String := (name? file.path).bind extensionOf?

end ConfigFile

end Switchboard
