import DetachedSchema.Filter
import DetachedSchema.Format
import DetachedSchema.Require
import DetachedSchema.Text.Blank

/-!
# Settings

Settings say what to detach, what to keep of it, and where and how to write the snapshot.
-/

namespace DetachedSchema

/-- The listing to detach. -/
structure SourceSettings where
  path : String
  /-- The format of the file; without one, its name tells the format. -/
  format : Option Format := none
deriving DecidableEq

/-- Where and how the snapshot is written. -/
structure OutputSettings where
  /-- The file to write; without one, the snapshot is printed. -/
  path : Option String := none
  format : Option Format := none
  /-- Whether JSON is written with one member a line. -/
  isPretty : Bool := true
deriving DecidableEq

/-- What to detach, what to keep of it, and where to write it. -/
structure Settings where
  source : SourceSettings
  output : OutputSettings := {}
  filter : Filter := {}
deriving DecidableEq

/-! ### Codecs -/

/-- How the path of a file is written. -/
def FilePath.codec : Codec String := .textAs "path string"

/-- How source settings are written. -/
def SourceSettings.codec : Codec SourceSettings :=
  .record "SourceConfig"
    (.more "path" FilePath.codec .required <|
     .more "format" (.option Format.codec) .omitted .nil)
    (fun (path, format, _) => ⟨path, format⟩)
    (fun s => (s.path, s.format, ()))

/-- How output settings are written. -/
def OutputSettings.codec : Codec OutputSettings :=
  .record "OutputConfig"
    (.more "path" (.option FilePath.codec) .omitted <|
     .more "format" (.option Format.codec) .omitted <|
     .more "pretty" .bool (.default true) .nil)
    (fun (path, format, isPretty, _) => ⟨path, format, isPretty⟩)
    (fun s => (s.path, s.format, s.isPretty, ()))

/-- How settings are written. -/
def Settings.codec : Codec Settings :=
  .record "Config"
    (.more "source" SourceSettings.codec .required <|
     .more "output" OutputSettings.codec (.default {}) <|
     .more "filter" Filter.codec (.default {}) .nil)
    (fun (source, output, filter, _) => ⟨source, output, filter⟩)
    (fun s => (s.source, s.output, s.filter, ()))

/-! ### Formats -/

/-- The format in which the source is read. -/
def SourceSettings.resolvedFormat (s : SourceSettings) : Except Fault Format :=
  match s.format with
  | some format => .ok format
  | none => Format.ofPath s.path

/-- The format in which the snapshot is written; without a file it is JSON. -/
def OutputSettings.resolvedFormat (s : OutputSettings) : Except Fault Format :=
  match s.format, s.path with
  | some format, _ => .ok format
  | none, some path => Format.ofPath path
  | none, none => .ok .json

/-! ### Checks -/

namespace Settings

/-- The settings that read a file and leave all else as usual. -/
def ofSource (path : String) : Settings := { source := { path } }

/-- Whether an entry for tables is a name, or two names with a dot between them. -/
def isTableEntry (entry : String) : Bool :=
  let names := Text.split '.' entry.toList
  names.length ≤ 2 && names.all (!·.isEmpty)

/-- Checks the settings of the source. -/
def checkSource (s : SourceSettings) : Except SettingsProblem Unit := do
  require (s.path ≠ "") .noSourcePath
  require s.resolvedFormat.isOk (.noSourceFormat s.path)

/-- Checks the settings of the output. -/
def checkOutput (s : OutputSettings) : Except SettingsProblem Unit :=
  match s.path with
  | none => .ok ()
  | some path => do
    require (path ≠ "") .emptyOutputPath
    require s.resolvedFormat.isOk (.noOutputFormat path)

/-- Checks the entries of a filter: first that none is blank, then the form of those for tables. -/
def checkFilter (f : Filter) : Except SettingsProblem Unit := do
  let noneBlank (list : String) (entries : List String) : Except SettingsProblem Unit :=
    require (entries.all fun e => !e.toList.all Text.isBlank) (.blankEntry list)
  noneBlank "filter.catalogs" f.catalogs
  noneBlank "filter.schemas" f.schemas
  noneBlank "filter.tables" f.tables
  noneBlank "filter.exclude_tables" f.excludedTables
  (f.tables ++ f.excludedTables).forM fun e => require (isTableEntry e) (.tableEntry e)

/-- Finds the first problem of settings. -/
def check (s : Settings) : Except SettingsProblem Unit := do
  checkSource s.source
  checkOutput s.output
  checkFilter s.filter

/-- Refuses settings that cannot be used. -/
def validate (s : Settings) : Except Fault Unit := s.check.mapError .settings

end Settings

end DetachedSchema
