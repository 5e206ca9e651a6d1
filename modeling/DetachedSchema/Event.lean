import DetachedSchema.Text.Terminal
import DetachedSchema.Path

/-!
# Events

What is told while metadata is read and copied, and how a log gives it.
-/

namespace DetachedSchema

/-- How important an event is. -/
inductive Severity
  | debug
  | info
  | warning
  | error
deriving DecidableEq

/-- The rank of a severity: the higher, the more important. -/
def Severity.rank : Severity → Nat
  | .debug => 0
  | .info => 1
  | .warning => 2
  | .error => 3

/-- Something that is told. -/
inductive Event
  /-- The walk over a source begins. -/
  | copying (source : String)
  | copyingSchema (schema : SchemaPath)
  /-- A table has more than one column with generated values, and this is not the first. -/
  | extraIdentity (table : TablePath) (column : String)
  /-- The primary key of a table is none of its unique keys. -/
  | strayPrimaryKey (table : TablePath) (key : String)
  | copiedTable (table : TablePath) (columns keys indexes foreignKeys : Nat)
  /-- The walk is over and so many foreign keys are to be resolved. -/
  | resolving (foreignKeys : Nat)
  | indexedKeys (keys : Nat)
  | resolvedKey (table : TablePath) (foreignKey : String) (target : TablePath)
  | detached (catalogs schemas tables foreignKeys : Nat) (source : String)
  /-- A source is going to be read into a listing. -/
  | prefetching (source : String)
  | prefetchingSchema (schema : SchemaPath)
  /-- A filter hides a table. -/
  | hiddenTable (schema : SchemaPath) (table : String)
  /-- A filter hides a foreign key because it hides the table that it refers to. -/
  | hiddenForeignKey (foreignKey : String) (table target : TablePath)
  | wroteSnapshot (fingerprint path : String)
  | loadedSnapshot (fingerprint path : String)
  | loadedSettings (path : String)
  | loadedListing (path : String)
deriving DecidableEq

namespace Event

/-- How important the event is. -/
def severity : Event → Severity
  | .strayPrimaryKey .. => .warning
  | .copying _ | .resolving _ | .detached .. | .prefetching _ | .wroteSnapshot ..
  | .loadedSnapshot .. | .loadedSettings _ | .loadedListing _ => .info
  | .copyingSchema _ | .extraIdentity .. | .copiedTable .. | .indexedKeys _ | .resolvedKey ..
  | .prefetchingSchema _ | .hiddenTable .. | .hiddenForeignKey .. => .debug

/-- The event in words. -/
def message : Event → String
  | .copying source => s!"Phase 1: copying metadata from {source}"
  | .copyingSchema schema => s!"Copying schema {schema.text}"
  | .extraIdentity table column =>
    s!"{table.text}: column {column} is identity-flagged but the table already has an identity"
  | .strayPrimaryKey table key =>
    s!"{table.text}: primary key {key} is not among the table's unique keys, ignoring it"
  | .copiedTable table columns keys indexes foreignKeys =>
    s!"{table.text}: copied {columns} columns, {keys} keys, {indexes} indexes, " ++
      s!"{foreignKeys} pending foreign keys"
  | .resolving foreignKeys => s!"Phase 2: resolving {foreignKeys} foreign key references"
  | .indexedKeys keys => s!"Indexed {keys} unique keys"
  | .resolvedKey table foreignKey target =>
    s!"{table.text}: foreign key {foreignKey} -> {target.text}"
  | .detached catalogs schemas tables foreignKeys source =>
    s!"Detached {catalogs} catalogs, {schemas} schemas, {tables} tables " ++
      s!"({foreignKeys} foreign keys) from {source}"
  | .prefetching source => s!"Prefetching metadata from {source}"
  | .prefetchingSchema schema => s!"Prefetching schema {schema.text}"
  | .hiddenTable schema table => s!"Filtered out table {schema.text}.{table}"
  | .hiddenForeignKey foreignKey table target =>
    s!"Dropping foreign key {foreignKey} on {table.text}: {target.text} is filtered out"
  | .wroteSnapshot fingerprint path => s!"Wrote snapshot {fingerprint} to {Text.quoted path}"
  | .loadedSnapshot fingerprint path => s!"Loaded snapshot {fingerprint} from {Text.quoted path}"
  | .loadedSettings path => s!"Loaded configuration from {Text.quoted path}"
  | .loadedListing path => s!"Loaded metadata document {Text.quoted path}"

end Event

/-- How a log is written. -/
inductive LogFormat
  /-- As lines of text, which may be shown on a terminal. -/
  | text
  | json
deriving DecidableEq

/-- What a log says about the event. -/
def Event.logged (event : Event) : LogFormat → String
  | .text => Text.forTerminal event.message
  | .json => event.message

end DetachedSchema
