import DetachedSchema.Fault
import DetachedSchema.Require
import DetachedSchema.Snapshot.Basic

/-!
# Consistency

A snapshot is consistent when every id in it is the place where it stands, every path names the
containers of its table, and every reference leads to something.  A detached snapshot is consistent
by construction; one that comes from a file has to be checked.
-/

namespace DetachedSchema

namespace Snapshot

/-- Whether all positions are those of columns of a table. -/
def inRange (t : Table) (positions : List Nat) : Bool := positions.all (· < t.columns.length)

/-- Checks the columns of a table. -/
def checkColumns (t : Table) : Except Defect Unit :=
  t.columns.zipIdx.forM fun (c, i) =>
    require (c.table = t.id && c.position = i) (.column c.name t.path)

/-- Checks the indexes of a table. -/
def checkIndexes (t : Table) : Except Defect Unit :=
  t.indexes.forM fun index =>
    require (index.table = t.id && inRange t (index.columns.map IndexColumn.column))
      (.index index.name t.path)

/-- Checks the unique keys of a table. -/
def checkKeys (t : Table) : Except Defect Unit :=
  t.uniqueKeys.zipIdx.forM fun (key, k) =>
    require (key.id = ⟨t.id, k⟩ && inRange t key.columns) (.uniqueKey key.name t.path)

/-- Checks the primary key and the identity of a table. -/
def checkPlaces (t : Table) : Except Defect Unit := do
  require (t.primaryKeyPlace.all (· < t.uniqueKeys.length)) (.primaryKey t.path)
  require (t.identity.all fun i => i.table = t.id && i.column < t.columns.length)
    (.identity t.path)

/-- Checks a foreign key of a table. -/
def checkForeignKey (s : Snapshot) (t : Table) (fk : ForeignKey) : Except Defect Unit := do
  require (fk.table = t.id && inRange t fk.columns) (.foreignKey fk.name t.path)
  match s.referencedKey? fk with
  | none => throw (.danglingKey fk.name t.path)
  | some key =>
    require (key.columns.length = fk.columns.length)
      (.columnCount fk.name t.path fk.columns.length key.name key.columns.length)

/-- Checks what a table owns. -/
def checkTable (s : Snapshot) (t : Table) : Except Defect Unit := do
  checkColumns t
  checkIndexes t
  checkKeys t
  checkPlaces t
  t.foreignKeys.forM (s.checkForeignKey t)

/-- Checks a schema at a place in a catalog. -/
def checkSchema (s : Snapshot) (catalog : String) (id : SchemaId) (schema : Schema) :
    Except Defect Unit := do
  require (schema.id = id) (.schemaPlace schema.name)
  require
    (schema.domains.all (·.schema = schema.id) && schema.sequences.all (·.schema = schema.id)
      && schema.userTypes.all (·.schema = schema.id))
    (.schemaOwner schema.name)
  schema.tables.zipIdx.forM fun (t, i) => do
    require (t.id = id.table i) (.tablePlace t.path)
    require (t.path.schemaPath = ⟨catalog, schema.name⟩) (.tablePath t.path catalog schema.name)
    s.checkTable t

/-- Checks a catalog at a place. -/
def checkCatalog (s : Snapshot) (id : CatalogId) (catalog : Catalog) : Except Defect Unit := do
  require (catalog.id = id) (.catalogPlace catalog.name id.index catalog.id.index)
  catalog.schemas.zipIdx.forM fun (schema, i) => s.checkSchema catalog.name (id.schema i) schema

/-- Finds the first defect of a snapshot. -/
def check (s : Snapshot) : Except Defect Unit :=
  s.catalogs.zipIdx.forM fun (catalog, i) => s.checkCatalog ⟨i⟩ catalog

/-- Refuses a snapshot that is not consistent. -/
def validate (s : Snapshot) : Except Fault Unit := s.check.mapError .invalidSnapshot

end Snapshot

end DetachedSchema
