import DetachedSchema.Defect
import DetachedSchema.Json.Fault

/-!
# Faults

Why something cannot be done: the settings cannot be used, a source does not answer, a reference
leads nowhere, a snapshot is not consistent, or a file or a document cannot be read.
-/

namespace DetachedSchema

/-- Why settings cannot be used.  Files are given by their paths. -/
inductive SettingsProblem
  /-- The name of the file does not tell its format. -/
  | unknownExtension (path : String)
  | noSourcePath
  | noSourceFormat (path : String)
  | emptyOutputPath
  | noOutputFormat (path : String)
  /-- A list of the filter has an entry of blanks alone. -/
  | blankEntry (list : String)
  /-- An entry is neither the name of a table nor those of a schema and a table. -/
  | tableEntry (entry : String)
  | noSource
  | stated (message : String)
deriving DecidableEq

/-- The problem in words. -/
def SettingsProblem.message : SettingsProblem → String
  | .unknownExtension path =>
    s!"cannot infer document format from {Text.quoted path}; use a .json, .yaml or .yml extension"
  | .noSourcePath => "source.path is required"
  | .noSourceFormat path =>
    s!"source.format is required when {Text.quoted path} has no .json, .yaml or .yml extension"
  | .emptyOutputPath => "output.path must not be empty; omit it to write to stdout"
  | .noOutputFormat path =>
    s!"output.format is required when {Text.quoted path} has no .json, .yaml or .yml extension"
  | .blankEntry list => s!"{list} must not contain empty entries"
  | .tableEntry entry => s!"table filter '{entry}' must be 'table' or 'schema.table'"
  | .noSource => "no source given; pass --source or --config"
  | .stated message => message

/-- Why a file cannot be read or written. -/
inductive FileProblem
  | notFound
  | isDirectory
  | notDirectory
  | nameTooLong
  /-- The bytes of the file are not the UTF-8 form of a text. -/
  | notText
  /-- The path holds the character with the number zero. -/
  | nulInPath
  | stated (message : String)
deriving DecidableEq

/-- The problem in words. -/
def FileProblem.message : FileProblem → String
  | .notFound => "No such file or directory (os error 2)"
  | .isDirectory => "Is a directory (os error 21)"
  | .notDirectory => "Not a directory (os error 20)"
  | .nameTooLong => "File name too long (os error 36)"
  | .notText => "stream did not contain valid UTF-8"
  | .nulInPath => "file name contained an unexpected NUL byte"
  | .stated message => message

/-- Why something cannot be done. -/
inductive Fault
  | settings (problem : SettingsProblem)
  /-- A source cannot answer; `context` says what it was doing. -/
  | sourceAccess (context problem : String)
  /-- No copied unique key matches what a foreign key refers to. -/
  | unresolvedReference (foreignKey table referencedTable columns : String)
  /-- A key or an index names a column that its table does not have. -/
  | unknownColumn (table owner column : String)
  | invalidSnapshot (defect : Defect)
  | file (problem : FileProblem)
  /-- A file cannot be read or written because of another fault. -/
  | fileBecause (cause : Fault)
  /-- A YAML document cannot be read. -/
  | yaml (message : String)
  /-- A JSON document cannot be read. -/
  | json (cause : Json.Fault)
deriving DecidableEq

namespace Fault

/-- The fault in words. -/
def message : Fault → String
  | .settings problem => s!"Configuration error: {problem.message}"
  | .sourceAccess context problem =>
    s!"Source metadata access failed while {context}: {problem}"
  | .unresolvedReference foreignKey table referencedTable columns =>
    s!"Foreign key {foreignKey} on {table} references ({columns}) on {referencedTable}, " ++
      "but no unique key with these columns exists"
  | .unknownColumn table owner column =>
    s!"{owner} on table {table} references unknown column {column}"
  | .invalidSnapshot defect => s!"Invalid snapshot: {defect.message}"
  | .file problem => s!"IO error: {problem.message}"
  | .fileBecause cause => s!"IO error: {cause.message}"
  | .yaml message => s!"YAML error: {message}"
  | .json cause => s!"JSON error: {cause.message}"

/-- What the fault goes back to, in words and from the nearest cause on. -/
def causes : Fault → List String
  | .file problem => [problem.message]
  | .fileBecause cause => cause.message :: cause.causes
  | .yaml message => [message]
  | .json cause => [cause.message]
  | .settings _ | .sourceAccess .. | .unresolvedReference .. | .unknownColumn ..
  | .invalidSnapshot _ => []

/-- The fault in words with its causes, which are numbered. -/
def report (fault : Fault) : String :=
  let causes := fault.causes.zipIdx.map fun (cause, i) => s!"\nCaused by:\n  {i + 1}: {cause}"
  s!"Error: {fault.message}\n" ++ String.join causes

/-- The exit code of a program that ends with the fault. -/
def exitCode : Fault → Nat
  | .settings _ | .yaml _ | .json _ => 1
  | .sourceAccess .. => 2
  | .unresolvedReference .. | .unknownColumn .. => 3
  | .invalidSnapshot _ => 4
  | .file _ | .fileBecause _ => 7

end Fault

end DetachedSchema
