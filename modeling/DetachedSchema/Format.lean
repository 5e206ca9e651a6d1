import DetachedSchema.Codec
import DetachedSchema.Fault
import DetachedSchema.FilePath

/-!
# Formats

The formats of documents: JSON and YAML.  The name of a file tells its format.
-/

namespace DetachedSchema

/-- The format of a document. -/
inductive Format
  | json
  | yaml
deriving DecidableEq, Inhabited

namespace Format

/-- The name of a format in documents. -/
def name : Format → String
  | .json => "json"
  | .yaml => "yaml"

/-- How a format is written. -/
def codec : Codec Format := .oneOf [.json, .yaml] name

/-- The format of a file, by the extension of its name in upper or lower case. -/
def ofPath (path : String) : Except Fault Format :=
  match (FilePath.extension? path).map String.toLower with
  | some "json" => .ok .json
  | some "yaml" | some "yml" => .ok .yaml
  | _ => .error (.settings (.unknownExtension path))

/-- Reads a document. -/
def read {α : Type} (f : Format) (c : Codec α) (text : String) : Except Fault α :=
  match f with
  | .json => (c.ofJson text).mapError .json
  | .yaml =>
    match c.ofYaml text with
    | some a => .ok a
    | none => .error (.yaml "the document does not say what was asked for")

/-- Writes a document; only JSON has a pretty form. -/
def write {α : Type} (f : Format) (c : Codec α) (isPretty : Bool) (a : α) : String :=
  match f with
  | .json => c.toJson isPretty a
  | .yaml => c.toYaml a

end Format

end DetachedSchema
