import DetachedSchema.Script
import DetachedSchema.Snapshot.Basic

/-!
# Walking a source

The first phase of detaching asks a source once for every node, from the catalogs down, and copies
the answers.  The unique key that a foreign key refers to may belong to a table that is copied
later, so foreign keys are put aside until every table has been copied.
-/

namespace DetachedSchema

/-- A copied foreign key that has not been resolved. -/
structure PendingKey where
  table : TableId
  /-- The path of the table. -/
  path : TablePath
  name : String
  columns : List Nat
  enforced : Bool
  references : KeyReference
deriving DecidableEq

/-- The foreign key that refers to a unique key. -/
def PendingKey.resolve (k : PendingKey) (key : KeyId) : ForeignKey :=
  ⟨k.table, k.name, k.columns, k.enforced, key⟩

/-- Something that has been copied, and the foreign keys that were put aside with it. -/
structure Draft (α : Type) where
  content : α
  pending : List PendingKey
deriving DecidableEq

/-- Several drafts as one. -/
def Draft.all {α : Type} (drafts : List (Draft α)) : Draft (List α) :=
  ⟨drafts.map Draft.content, drafts.flatMap Draft.pending⟩

namespace Walk

/-! ### Copies of entries -/

/-- The copy of a domain. -/
def copyDomain (schema : SchemaId) (e : DomainEntry) : Domain :=
  ⟨schema, e.name, e.dataType, e.checks⟩

/-- The copy of a sequence, whether the sequence is running or not. -/
def copySequence (schema : SchemaId) (e : SequenceEntry) : Sequence :=
  ⟨schema, e.name, e.dataType, e.startWith, e.incrementBy, e.minValue, e.maxValue, e.cycle, e.cache⟩

/-- The copy of an attribute. -/
def copyAttribute (e : ColumnEntry) : Attribute := ⟨e.name, e.dataType, e.comment⟩

/-- The copy of a user-defined type. -/
def copyUserType (schema : SchemaId) (e : UserTypeEntry) : UserType :=
  ⟨schema, e.name, e.package, e.synthetic, e.attributes.map copyAttribute⟩

/-- The copy of a column. -/
def copyColumn (table : TableId) (position : Nat) (e : ColumnEntry) : Column :=
  ⟨table, position, e.name, e.dataType, e.comment⟩

/-- The copies of the columns of a table. -/
def copyColumns (table : TableId) (entries : List ColumnEntry) : List Column :=
  entries.zipIdx.map fun (e, i) => copyColumn table i e

/-- The names of the columns with generated values after the first one. -/
def extraIdentities (entries : List ColumnEntry) : List String :=
  ((entries.filter (·.dataType.identity)).drop 1).map ColumnEntry.name

/-- The first column with generated values. -/
def copyIdentity (table : TableId) (entries : List ColumnEntry) : Option Identity :=
  (entries.findIdx? (·.dataType.identity)).map fun i => ⟨table, i⟩

/-- The position of the first column with a name.  `owner` is what names the column. -/
def position (path : TablePath) (columns : List Column) (owner name : String) : Except Fault Nat :=
  match columns.findIdx? (·.name = name) with
  | some i => .ok i
  | none => .error (.unknownColumn path.text owner name)

/-- The copy of an index. -/
def copyIndex (t : Table) (e : IndexEntry) : Except Fault Index := do
  let columns ← e.columns.mapM fun c => do
    return ⟨← position t.path t.columns s!"Index {e.name}" c.name, c.order⟩
  return ⟨t.id, e.name, columns, e.unique⟩

/-- The copy of a unique key at a place in its table. -/
def copyKey (t : Table) (place : Nat) (e : KeyEntry) : Except Fault UniqueKey := do
  let columns ← e.columns.mapM (position t.path t.columns s!"Unique key {e.name}")
  return ⟨⟨t.id, place⟩, e.name, columns, e.enforced⟩

/-- The copy of a foreign key. -/
def copyForeignKey (t : Table) (e : ForeignKeyEntry) : Except Fault PendingKey := do
  let columns ← e.columns.mapM (position t.path t.columns s!"Foreign key {e.name}")
  return ⟨t.id, t.path, e.name, columns, e.enforced, e.references⟩

/-! ### Nodes with what they own -/

/-- Tells that the primary key of a table has no place among its unique keys. -/
def tellStrayKey (path : TablePath) : Option KeyEntry → Option Nat → Script Unit
  | some primary, none => Script.log (.strayPrimaryKey path primary.name)
  | _, _ => pure ()

/-- Copies a table with all that it owns but its foreign keys, which are put aside. -/
def copyTable (id : TableId) (path : TablePath) (e : TableEntry) : Script (Draft Table) := do
  let columns ← Script.query (.columns path)
  (extraIdentities columns).forM fun name => Script.log (.extraIdentity path name)
  let t : Table :=
    { id, path
      comment := e.comment
      options := e.options
      columns := copyColumns id columns
      indexes := []
      uniqueKeys := []
      primaryKeyPlace := none
      foreignKeys := []
      checks := []
      identity := copyIdentity id columns }
  let indexes ← Script.query (.indexes path)
  let indexes ← Script.ofExcept (indexes.mapM (copyIndex t))
  let keys ← Script.query (.uniqueKeys path)
  let uniqueKeys ← Script.ofExcept (keys.zipIdx.mapM fun (key, i) => copyKey t i key)
  let primaryKey ← Script.query (.primaryKey path)
  let primaryKeyPlace := primaryKey.bind fun primary => keys.findIdx? (·.sameKey primary)
  tellStrayKey path primaryKey primaryKeyPlace
  let foreignKeys ← Script.query (.foreignKeys path)
  let pending ← Script.ofExcept (foreignKeys.mapM (copyForeignKey t))
  let checks ← Script.query (.checks path)
  Script.log
    (.copiedTable path columns.length uniqueKeys.length indexes.length pending.length)
  return ⟨{ t with indexes, uniqueKeys, primaryKeyPlace, checks }, pending⟩

/-- Copies a schema with its tables. -/
def copySchema (id : SchemaId) (path : SchemaPath) (e : SchemaEntry) : Script (Draft Schema) := do
  Script.log (.copyingSchema path)
  let domains ← Script.query (.domains path)
  let tables ← Script.query (.tables path)
  let drafts ← tables.zipIdx.mapM fun (table, i) =>
    copyTable (id.table i) (path.table table.name) table
  let sequences ← Script.query (.sequences path)
  let userTypes ← Script.query (.userTypes path)
  let tables := Draft.all drafts
  return {
    content :=
      { id
        name := e.name
        comment := e.comment
        domains := domains.map (copyDomain id)
        tables := tables.content
        sequences := sequences.map (copySequence id)
        userTypes := userTypes.map (copyUserType id) }
    pending := tables.pending }

/-- Copies a catalog with its schemas. -/
def copyCatalog (id : CatalogId) (e : CatalogEntry) : Script (Draft Catalog) := do
  let schemas ← Script.query (.schemas e.name)
  let drafts ← schemas.zipIdx.mapM fun (schema, i) =>
    copySchema (id.schema i) ⟨e.name, schema.name⟩ schema
  let schemas := Draft.all drafts
  return ⟨⟨id, e.name, e.comment, schemas.content⟩, schemas.pending⟩

/-- Copies all that a source has.  The foreign keys that are put aside are in the order of their
tables. -/
def copyAll : Script (Draft (List Catalog)) := do
  let catalogs ← Script.query .catalogs
  let drafts ← catalogs.zipIdx.mapM fun (catalog, i) => copyCatalog ⟨i⟩ catalog
  return Draft.all drafts

end Walk

end DetachedSchema
