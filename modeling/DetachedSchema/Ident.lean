/-!
# Ids

An id is a place in one snapshot, counted from zero: the place of a catalog among the catalogs, of
a schema in its catalog, of a table in its schema and of a unique key in its table.
-/

namespace DetachedSchema

/-- The place of a catalog in a snapshot. -/
structure CatalogId where
  index : Nat
deriving DecidableEq, Inhabited

/-- The place of a schema in a snapshot. -/
structure SchemaId where
  catalog : Nat
  schema : Nat
deriving DecidableEq, Inhabited

/-- The place of a table in a snapshot. -/
structure TableId where
  catalog : Nat
  schema : Nat
  table : Nat
deriving DecidableEq, Inhabited

/-- The place of a unique key in a snapshot. -/
structure KeyId where
  table : TableId
  key : Nat
deriving DecidableEq, Inhabited

namespace SchemaId

/-- The catalog that holds the schema. -/
def catalogId (i : SchemaId) : CatalogId := ⟨i.catalog⟩

/-- The id of the table at a place in the schema. -/
def table (i : SchemaId) (place : Nat) : TableId := ⟨i.catalog, i.schema, place⟩

end SchemaId

/-- The id of the schema at a place in the catalog. -/
def CatalogId.schema (i : CatalogId) (place : Nat) : SchemaId := ⟨i.index, place⟩

/-- The schema that holds the table. -/
def TableId.schemaId (i : TableId) : SchemaId := ⟨i.catalog, i.schema⟩

@[simp] theorem CatalogId.catalogId_schema (i : CatalogId) (place : Nat) :
  (i.schema place).catalogId = i
  := rfl

@[simp] theorem SchemaId.schemaId_table (i : SchemaId) (place : Nat) :
  (i.table place).schemaId = i
  := rfl

end DetachedSchema
