import DetachedSchema.Path
import DetachedSchema.DataType
import DetachedSchema.Descriptor

/-!
# Entries

What a source lists about a node: names, comments and plain attributes.  One entry refers to another
by name alone; a foreign key gives the path of the table and the names of the columns it refers to.
-/

namespace DetachedSchema

/-- A catalog as a source lists it. -/
structure CatalogEntry where
  name : String
  comment : String := ""
deriving DecidableEq

/-- A schema as a source lists it. -/
structure SchemaEntry where
  name : String
  comment : String := ""
deriving DecidableEq

/-- A domain, which is a constrained alias of a data type. -/
structure DomainEntry where
  name : String
  dataType : DataType
  checks : List Check := []
deriving DecidableEq

/-- A table as a source lists it, without what it owns. -/
structure TableEntry where
  name : String
  comment : String := ""
  options : TableOptions := {}
deriving DecidableEq

/-- A column of a table, or an attribute of a user-defined type. -/
structure ColumnEntry where
  name : String
  dataType : DataType
  comment : String := ""
deriving DecidableEq

/-- A column of an index with its direction. -/
structure SortedColumnEntry where
  name : String
  order : SortOrder := .ascending
deriving DecidableEq

/-- An index. -/
structure IndexEntry where
  name : String
  columns : List SortedColumnEntry
  unique : Bool := false
deriving DecidableEq

/-- A unique or primary key. -/
structure KeyEntry where
  name : String
  columns : List String
  enforced : Bool := true
deriving DecidableEq

/-- Whether two entries declare the same key: one name over one list of columns. -/
def KeyEntry.sameKey (a b : KeyEntry) : Bool := a.name == b.name && a.columns == b.columns

/-- The unique key that a foreign key refers to, by table and column names. -/
structure KeyReference where
  table : TablePath
  columns : List String
deriving DecidableEq

/-- A foreign key. -/
structure ForeignKeyEntry where
  name : String
  columns : List String
  enforced : Bool := true
  references : KeyReference
deriving DecidableEq

/-- A sequence. -/
structure SequenceEntry where
  name : String
  dataType : DataType
  startWith : Option Int64 := none
  incrementBy : Option Int64 := none
  minValue : Option Int64 := none
  maxValue : Option Int64 := none
  cycle : Bool := false
  cache : Option Int64 := none
  /-- Whether the entry is bound to a sequence that is running in a database. -/
  live : Bool := false
deriving DecidableEq

/-- A user-defined type. -/
structure UserTypeEntry where
  name : String
  package : Option String := none
  synthetic : Bool := false
  attributes : List ColumnEntry := []
deriving DecidableEq

end DetachedSchema
