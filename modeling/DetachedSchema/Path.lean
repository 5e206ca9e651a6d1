/-!
# Paths

A path names an entity by its place in the hierarchy of catalogs, schemas and tables.  Sources are
asked about paths, and tables of two different snapshots are the same table when their paths agree.
-/

namespace DetachedSchema

/-- The name of a schema together with the name of the catalog that holds it. -/
structure SchemaPath where
  catalog : String
  schema : String
deriving DecidableEq, Inhabited

/-- The name of a table together with the names of the schema and catalog that hold it. -/
structure TablePath where
  catalog : String
  schema : String
  table : String
deriving DecidableEq, Inhabited

namespace SchemaPath

/-- The path of a table of the schema. -/
def table (p : SchemaPath) (name : String) : TablePath := ⟨p.catalog, p.schema, name⟩

/-- The path with dots between the names; a catalog without a name is left out. -/
def text (p : SchemaPath) : String :=
  if p.catalog = "" then p.schema else p.catalog ++ "." ++ p.schema

end SchemaPath

namespace TablePath

/-- The path of the schema that holds the table. -/
def schemaPath (p : TablePath) : SchemaPath := ⟨p.catalog, p.schema⟩

/-- The path with dots between the names; a catalog without a name is left out. -/
def text (p : TablePath) : String :=
  if p.catalog = "" then p.schema ++ "." ++ p.table
  else p.catalog ++ "." ++ p.schema ++ "." ++ p.table

/-- Paths are ordered by catalog, then by schema, then by table, each by code points. -/
instance : Ord TablePath where
  compare p q :=
    (compare p.catalog q.catalog).then ((compare p.schema q.schema).then (compare p.table q.table))

/-- The paths in ascending order. -/
def sorted (paths : List TablePath) : List TablePath :=
  paths.mergeSort fun p q => (compare p q).isLE

@[simp] theorem table_schemaPath (p : TablePath) : p.schemaPath.table p.table = p := rfl

end TablePath

@[simp] theorem SchemaPath.schemaPath_table (p : SchemaPath) (name : String) :
  (p.table name).schemaPath = p
  := rfl

end DetachedSchema
