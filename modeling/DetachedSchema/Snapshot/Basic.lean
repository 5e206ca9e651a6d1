import DetachedSchema.Entry
import DetachedSchema.Ident

/-!
# Snapshots

A snapshot is a copy of the metadata of a database that stands on its own.  What belongs to a table
is stored in the table, columns are given by their positions in it, and a foreign key holds the id
of the unique key that it refers to.
-/

namespace DetachedSchema

/-- A domain, which is a constrained alias of a data type. -/
structure Domain where
  schema : SchemaId
  name : String
  dataType : DataType
  checks : List Check
deriving DecidableEq

/-- A sequence.  It is bound to no sequence that is running in a database. -/
structure Sequence where
  schema : SchemaId
  name : String
  dataType : DataType
  startWith : Option Int64
  incrementBy : Option Int64
  minValue : Option Int64
  maxValue : Option Int64
  cycle : Bool
  cache : Option Int64
deriving DecidableEq

/-- An attribute of a user-defined type. -/
structure Attribute where
  name : String
  dataType : DataType
  comment : String
deriving DecidableEq

/-- A user-defined type. -/
structure UserType where
  schema : SchemaId
  name : String
  package : Option String
  synthetic : Bool
  attributes : List Attribute
deriving DecidableEq

/-- A column of a table. -/
structure Column where
  table : TableId
  position : Nat
  name : String
  dataType : DataType
  comment : String
deriving DecidableEq

/-- A column of an index with its direction. -/
structure IndexColumn where
  column : Nat
  order : SortOrder
deriving DecidableEq

/-- An index of a table. -/
structure Index where
  table : TableId
  name : String
  columns : List IndexColumn
  unique : Bool
deriving DecidableEq

/-- A unique or primary key of a table. -/
structure UniqueKey where
  id : KeyId
  name : String
  columns : List Nat
  enforced : Bool
deriving DecidableEq

/-- A foreign key of a table. -/
structure ForeignKey where
  table : TableId
  name : String
  columns : List Nat
  enforced : Bool
  /-- The unique key that it refers to. -/
  key : KeyId
deriving DecidableEq

/-- The column of a table whose values the database generates. -/
structure Identity where
  table : TableId
  column : Nat
deriving DecidableEq

/-- A table. -/
structure Table where
  id : TableId
  path : TablePath
  comment : String
  options : TableOptions
  columns : List Column
  indexes : List Index
  uniqueKeys : List UniqueKey
  /-- The place of the primary key among the unique keys. -/
  primaryKeyPlace : Option Nat
  foreignKeys : List ForeignKey
  checks : List Check
  identity : Option Identity
deriving DecidableEq

/-- A schema. -/
structure Schema where
  id : SchemaId
  name : String
  comment : String
  domains : List Domain
  tables : List Table
  sequences : List Sequence
  userTypes : List UserType
deriving DecidableEq

/-- A catalog. -/
structure Catalog where
  id : CatalogId
  name : String
  comment : String
  schemas : List Schema
deriving DecidableEq

/-- A copy of the metadata of a database that stands on its own. -/
structure Snapshot where
  catalogs : List Catalog
deriving DecidableEq

/-! ### Tables -/

namespace Table

/-- The name of the table. -/
def name (t : Table) : String := t.path.table

/-- The first column with a name. -/
def column? (t : Table) (name : String) : Option Column := t.columns.find? (·.name = name)

/-- The columns at some positions; a position without a column is passed over. -/
def columnsAt (t : Table) (positions : List Nat) : List Column :=
  positions.filterMap (t.columns[·]?)

/-- The names of the columns at some positions. -/
def columnNames (t : Table) (positions : List Nat) : List String :=
  (t.columnsAt positions).map Column.name

/-- The primary key. -/
def primaryKey? (t : Table) : Option UniqueKey := do t.uniqueKeys[← t.primaryKeyPlace]?

/-- The column whose values the database generates. -/
def identityColumn? (t : Table) : Option Column := do t.columns[(← t.identity).column]?

end Table

/-- The first table with a name. -/
def Schema.table? (s : Schema) (name : String) : Option Table := s.tables.find? (·.name = name)

/-- The first schema with a name. -/
def Catalog.schema? (c : Catalog) (name : String) : Option Schema := c.schemas.find? (·.name = name)

/-! ### Snapshots -/

namespace Snapshot

/-- The snapshot without catalogs. -/
def empty : Snapshot := ⟨[]⟩

/-- The catalog with an id. -/
def catalog? (s : Snapshot) (id : CatalogId) : Option Catalog := s.catalogs[id.index]?

/-- The first catalog with a name. -/
def catalogNamed? (s : Snapshot) (name : String) : Option Catalog :=
  s.catalogs.find? (·.name = name)

/-- The schema with an id. -/
def schema? (s : Snapshot) (id : SchemaId) : Option Schema := do
  (← s.catalog? id.catalogId).schemas[id.schema]?

/-- The table with an id. -/
def table? (s : Snapshot) (id : TableId) : Option Table := do
  (← s.schema? id.schemaId).tables[id.table]?

/-- The unique key with an id. -/
def key? (s : Snapshot) (id : KeyId) : Option UniqueKey := do
  (← s.table? id.table).uniqueKeys[id.key]?

/-- The table with a path: the first of its name in the first schema of its name in the first
catalog of its name. -/
def find? (s : Snapshot) (path : TablePath) : Option Table := do
  (← (← s.catalogNamed? path.catalog).schema? path.schema).table? path.table

/-- The unique key that a foreign key refers to. -/
def referencedKey? (s : Snapshot) (fk : ForeignKey) : Option UniqueKey := s.key? fk.key

/-- The table that a foreign key refers to. -/
def referencedTable? (s : Snapshot) (fk : ForeignKey) : Option Table := s.table? fk.key.table

/-- All schemas, catalog by catalog. -/
def schemas (s : Snapshot) : List Schema := s.catalogs.flatMap Catalog.schemas

/-- All tables, catalog by catalog and schema by schema. -/
def tables (s : Snapshot) : List Table := s.schemas.flatMap Schema.tables

/-- All foreign keys, table by table. -/
def foreignKeys (s : Snapshot) : List ForeignKey := s.tables.flatMap Table.foreignKeys

/-- The foreign keys that refer to a table. -/
def referencing (s : Snapshot) (id : TableId) : List ForeignKey :=
  s.foreignKeys.filter (·.key.table = id)

end Snapshot

end DetachedSchema
