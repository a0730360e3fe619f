import Switchboard.Yaml.Value

/-!
# YAML documents

A text holds one document, which may be empty. Several documents are refused.
-/
namespace Switchboard.Yaml

/-- The settings of a text. -/
def ofText? (text : String) : Option Setting :=
  match (tokens? text).bind fun tokens => (Reader.start tokens).document? with
  | none => none
  | some (none, _) => some (.table [])
  | some (some node, r) => node.settings? r.named

end Switchboard.Yaml
