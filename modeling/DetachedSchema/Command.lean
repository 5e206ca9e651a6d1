import DetachedSchema.Detach
import DetachedSchema.Listing.Source
import DetachedSchema.Snapshot.Source
import DetachedSchema.Storage

/-!
# Commands

What the program does: detach a listing into a snapshot file, check such a file, or print how much
is in it.
-/

namespace DetachedSchema

/-- What the program is asked to do. -/
inductive Command
  /-- Detaches a listing; what is given here takes the place of what the settings say. -/
  | detach (source output : Option String) (format : Option Format)
  /-- Verifies a snapshot file and confirms that its snapshot detaches to itself. -/
  | check (path : String)
  /-- Prints the counts of a snapshot file. -/
  | stats (path : String)
deriving DecidableEq

namespace Command

/-- The lines that tell the counts of a snapshot. -/
def statsLines (s : Stats) : List String :=
  [s!"  Catalogs: {s.catalogs}",
   s!"  Schemas: {s.schemas}",
   s!"  Tables: {s.tables}",
   s!"  Columns: {s.columns}",
   s!"  Indexes: {s.indexes}",
   s!"  Unique keys: {s.uniqueKeys} ({s.primaryKeys} primary)",
   s!"  Foreign keys: {s.foreignKeys}",
   s!"  Checks: {s.checks}",
   s!"  Domains: {s.domains}",
   s!"  Sequences: {s.sequences}",
   s!"  UDTs: {s.userTypes}"]

/-- Prints some lines. -/
def printLines (lines : List String) : Action Unit := lines.forM Action.printLine

/-- Prints a tree as pretty JSON. -/
def printTree (t : Tree) : Action Unit := Action.printLine (Json.print true t)

/-- The settings, from a file or for a single source.  They are not validated yet. -/
def settings (path source : Option String) : Action Settings :=
  match path, source with
  | some path, source => do
    let s ← Settings.loadUnchecked path
    Action.log (.loadedSettings path)
    return match source with
      | some source => { s with source := { s.source with path := source } }
      | none => s
  | none, some source => return .ofSource source
  | none, none => .fail (.settings .noSource)

/-- The settings with what was asked for in their place. -/
def override (s : Settings) (output : Option String) (format : Option Format) : Settings :=
  { s with output :=
    { s.output with path := output <|> s.output.path, format := format <|> s.output.format } }

/-- Writes a snapshot as settings say, and tells what was written unless it is printed itself. -/
def writeSnapshot (s : Settings) (asJson : Bool) (snapshot : Snapshot) : Action Unit := do
  let e := Envelope.wrap snapshot s.source.path (← Action.clock)
  let format ← Action.ofExcept s.output.resolvedFormat
  match s.output.path with
  | some path =>
    e.save path format s.output.isPretty
    if asJson then
      printTree (.record
        [("fingerprint", .text e.fingerprint),
         ("output", .text path),
         ("stats", (Stats.codec.encode e.stats).sorted)])
    else
      printLines
        (["\nSnapshot written to " ++ path, "  Fingerprint: " ++ e.fingerprint] ++
          statsLines e.stats)
  | none => Action.printLine (e.write format s.output.isPretty)

/-- Detaches a listing as settings say.  An empty filter is left out. -/
def detachWith (s : Settings) (asJson : Bool) : Action Unit := do
  let listing ← Listing.load s.source.path s.source.format
  Action.log (.loadedListing s.source.path)
  let source := if s.filter.isEmpty then listing.source else listing.source.filtered s.filter
  let snapshot ← Action.ofRun (DetachedSchema.detach source ()).1
  writeSnapshot s asJson snapshot

/-- Checks a snapshot file. -/
def checkFile (path : String) (asJson : Bool) : Action Unit := do
  let e ← Envelope.load path
  Action.log (.loadedSnapshot e.fingerprint path)
  let again ← Action.ofRun (DetachedSchema.detach e.snapshot.source ()).1
  if again ≠ e.snapshot then Action.ofExcept (.error (.invalidSnapshot .unstable))
  if asJson then
    printTree (.record
      [("fingerprint", .text e.fingerprint),
       ("stats", (Stats.codec.encode e.stats).sorted),
       ("valid", .bool true)])
  else
    printLines
      ["Snapshot is valid",
       "  Fingerprint: " ++ e.fingerprint,
       "  Source: " ++ e.source,
       "  Created: " ++ e.created.offsetText]

/-- Prints the counts of a snapshot file. -/
def printStats (path : String) (asJson : Bool) : Action Unit := do
  let e ← Envelope.load path
  let stats := e.snapshot.stats
  if asJson then printTree (Stats.codec.encode stats)
  else printLines (("Snapshot " ++ e.fingerprint) :: statsLines stats)

/-- Carries out a command; `settingsPath` is the file with the settings. -/
def run (settingsPath : Option String) (asJson : Bool) : Command → Action Unit
  | .detach source output format => do
    let s := override (← settings settingsPath source) output format
    Action.ofExcept s.validate
    detachWith s asJson
  | .check path => checkFile path asJson
  | .stats path => printStats path asJson

end Command

end DetachedSchema
