import DetachedSchema.Snapshot.Basic
import DetachedSchema.Source

/-!
# Snapshots as sources

A snapshot answers every question about what it holds, so that it can be filtered and detached
again.  Positions and ids are turned back into names.
-/

namespace DetachedSchema

/-- The entry of a domain. -/
def Domain.entry (d : Domain) : DomainEntry := ⟨d.name, d.dataType, d.checks⟩

/-- The entry of a sequence. -/
def Sequence.entry (q : Sequence) : SequenceEntry where
  name := q.name
  dataType := q.dataType
  startWith := q.startWith
  incrementBy := q.incrementBy
  minValue := q.minValue
  maxValue := q.maxValue
  cycle := q.cycle
  cache := q.cache

/-- The entry of an attribute. -/
def Attribute.entry (a : Attribute) : ColumnEntry := ⟨a.name, a.dataType, a.comment⟩

/-- The entry of a user-defined type. -/
def UserType.entry (u : UserType) : UserTypeEntry :=
  ⟨u.name, u.package, u.synthetic, u.attributes.map Attribute.entry⟩

/-- The entry of a column. -/
def Column.entry (c : Column) : ColumnEntry := ⟨c.name, c.dataType, c.comment⟩

namespace Table

/-- The entry of the table. -/
def entry (t : Table) : TableEntry := ⟨t.name, t.comment, t.options⟩

/-- The entry of an index of the table; a column that the table does not have is left out. -/
def indexEntry (t : Table) (index : Index) : IndexEntry where
  name := index.name
  columns := index.columns.filterMap fun c =>
    (t.columns[c.column]?).map fun column => ⟨column.name, c.order⟩
  unique := index.unique

/-- The entry of a unique key of the table. -/
def keyEntry (t : Table) (key : UniqueKey) : KeyEntry :=
  ⟨key.name, t.columnNames key.columns, key.enforced⟩

end Table

/-- The entry of a schema. -/
def Schema.entry (s : Schema) : SchemaEntry := ⟨s.name, s.comment⟩

/-- The entry of a catalog. -/
def Catalog.entry (c : Catalog) : CatalogEntry := ⟨c.name, c.comment⟩

namespace Snapshot

/-- The first catalog with a name. -/
def catalogNamed (s : Snapshot) (name : String) : Except Fault Catalog :=
  match s.catalogNamed? name with
  | some c => .ok c
  | none => .error (.unknownCatalog name "snapshot")

/-- The schema with a path. -/
def schemaAt (s : Snapshot) (path : SchemaPath) : Except Fault Schema := do
  match (← s.catalogNamed path.catalog).schema? path.schema with
  | some schema => return schema
  | none => throw (.unknownSchema path "snapshot")

/-- The table with a path. -/
def tableAt (s : Snapshot) (path : TablePath) : Except Fault Table :=
  match s.find? path with
  | some t => .ok t
  | none => .error (.unknownTable path "snapshot")

/-- The entry of a foreign key of a table. -/
def foreignKeyEntry (s : Snapshot) (t : Table) (fk : ForeignKey) : Except Fault ForeignKeyEntry :=
  match s.referencedTable? fk, s.referencedKey? fk with
  | some target, some key => .ok
    { name := fk.name
      columns := t.columnNames fk.columns
      enforced := fk.enforced
      references := ⟨target.path, target.columnNames key.columns⟩ }
  | _, _ => .error (.invalidSnapshot (.noTarget fk.name t.path))

/-- The answer of the snapshot to a question. -/
def answer (s : Snapshot) : (q : Query) → Except Fault q.Answer
  | .catalogs => return s.catalogs.map Catalog.entry
  | .schemas catalog => return (← s.catalogNamed catalog).schemas.map Schema.entry
  | .domains schema => return (← s.schemaAt schema).domains.map Domain.entry
  | .tables schema => return (← s.schemaAt schema).tables.map Table.entry
  | .sequences schema => return (← s.schemaAt schema).sequences.map Sequence.entry
  | .userTypes schema => return (← s.schemaAt schema).userTypes.map UserType.entry
  | .columns table => return (← s.tableAt table).columns.map Column.entry
  | .indexes table => do
    let t ← s.tableAt table
    return t.indexes.map t.indexEntry
  | .uniqueKeys table => do
    let t ← s.tableAt table
    return t.uniqueKeys.map t.keyEntry
  | .primaryKey table => do
    let t ← s.tableAt table
    return t.primaryKey?.map t.keyEntry
  | .foreignKeys table => do
    let t ← s.tableAt table
    t.foreignKeys.mapM (s.foreignKeyEntry t)
  | .checks table => return (← s.tableAt table).checks

/-- The snapshot as a source. -/
def source (s : Snapshot) : Source Unit := .ofAnswers "snapshot" s.answer

end Snapshot

end DetachedSchema
