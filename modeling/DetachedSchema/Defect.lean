import DetachedSchema.Text.Quoted
import DetachedSchema.Path

/-!
# Defects

What can be wrong with a snapshot, or with the envelope around it, that comes from outside.
-/

namespace DetachedSchema

/-- What is wrong with a snapshot.  Tables are given by their paths. -/
inductive Defect
  /-- A catalog stands at another place than its id says. -/
  | catalogPlace (name : String) (place id : Nat)
  /-- A schema stands at another place than its id says. -/
  | schemaPlace (name : String)
  /-- A domain, sequence or user-defined type belongs to another schema than the one that holds
  it. -/
  | schemaOwner (name : String)
  /-- A table stands at another place than its id says. -/
  | tablePlace (table : TablePath)
  /-- The path of a table does not name the catalog and schema that hold it. -/
  | tablePath (table : TablePath) (catalog schema : String)
  /-- A column belongs to another table, or stands at another place than it says. -/
  | column (name : String) (table : TablePath)
  /-- An index belongs to another table, or names a column that its table does not have. -/
  | index (name : String) (table : TablePath)
  /-- A unique key has a wrong id, or names a column that its table does not have. -/
  | uniqueKey (name : String) (table : TablePath)
  /-- The primary key is none of the unique keys. -/
  | primaryKey (table : TablePath)
  /-- The identity belongs to another table, or names a column that its table does not have. -/
  | identity (table : TablePath)
  /-- A foreign key belongs to another table, or names a column that its table does not have. -/
  | foreignKey (name : String) (table : TablePath)
  /-- A foreign key refers to no unique key. -/
  | danglingKey (name : String) (table : TablePath)
  /-- A foreign key and the unique key that it refers to differ in their numbers of columns. -/
  | columnCount (name : String) (table : TablePath) (count : Nat) (key : String) (keyCount : Nat)
  /-- A foreign key that is to be listed refers to no unique key. -/
  | noTarget (name : String) (table : TablePath)
  /-- The layout of the document is of another version. -/
  | version (found expected : Nat)
  /-- The document gives another fingerprint than its content has. -/
  | fingerprint (given actual : String)
  /-- The document gives other counts than its content has. -/
  | stats
  /-- Detaching the snapshot does not give it back. -/
  | unstable
  | stated (message : String)
deriving DecidableEq

/-- The defect in words. -/
def Defect.message : Defect → String
  | .catalogPlace name place id =>
    s!"catalog {Text.quoted name} is at position {place} but carries id {id}"
  | .schemaPlace name =>
    s!"schema {Text.quoted name} carries an id that does not match its position"
  | .schemaOwner name => s!"schema {Text.quoted name} owns an object pointing at another schema"
  | .tablePlace table => s!"table {table.text} carries an id that does not match its position"
  | .tablePath table catalog schema => s!"table {table.text} is stored under {catalog}.{schema}"
  | .column name table => s!"column {name} of {table.text} is not owned by it"
  | .index name table => s!"index {name} on {table.text} references columns outside the table"
  | .uniqueKey name table =>
    s!"unique key {name} on {table.text} is inconsistent with its table"
  | .primaryKey table => s!"primary key of {table.text} is not one of its unique keys"
  | .identity table => s!"identity of {table.text} points outside the table"
  | .foreignKey name table =>
    s!"foreign key {name} on {table.text} is inconsistent with its table"
  | .danglingKey name table =>
    s!"foreign key {name} on {table.text} references a key outside the snapshot"
  | .columnCount name table count key keyCount =>
    s!"foreign key {name} on {table.text} has {count} columns but its target key {key} has " ++
      toString keyCount
  | .noTarget name table => s!"foreign key {name} on {table.text} has no target"
  | .version found expected => s!"unsupported format version {found} (expected {expected})"
  | .fingerprint given actual =>
    s!"fingerprint mismatch: document says {given}, content hashes to {actual}"
  | .stats => "stats do not match the snapshot content"
  | .unstable => "detaching the snapshot again produced a different graph"
  | .stated message => message

end DetachedSchema
