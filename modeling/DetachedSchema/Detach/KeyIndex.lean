import DetachedSchema.Snapshot.Basic

/-!
# Looking up unique keys

The unique keys of copied tables by the path of their table and the names of their columns in order.
Tables may share a path; their keys are then looked at together, in the order of the tables.
-/

namespace DetachedSchema

/-- A unique key by the names of its columns. -/
structure IndexedKey where
  columns : List String
  id : KeyId
deriving DecidableEq

/-- The unique keys of all tables, grouped by the paths of the tables. -/
structure KeyIndex where
  groups : List (TablePath × List IndexedKey)

namespace KeyIndex

/-- Adds keys behind those of the same path. -/
def insert (path : TablePath) (keys : List IndexedKey) :
    List (TablePath × List IndexedKey) → List (TablePath × List IndexedKey)
  | [] => [(path, keys)]
  | (p, ks) :: groups =>
    if p = path then (p, ks ++ keys) :: groups else (p, ks) :: insert path keys groups

/-- The keys of a table by their columns. -/
def keysOf (t : Table) : List IndexedKey :=
  t.uniqueKeys.map fun key => ⟨t.columnNames key.columns, key.id⟩

/-- The keys of some tables. -/
def ofTables (tables : List Table) : KeyIndex :=
  ⟨tables.foldl (fun groups t => insert t.path (keysOf t) groups) []⟩

/-- The number of keys. -/
def size (index : KeyIndex) : Nat := (index.groups.flatMap Prod.snd).length

/-- The first key of a table with the path that has exactly the columns, in order. -/
def find? (index : KeyIndex) (reference : KeyReference) : Option KeyId := do
  let keys ← index.groups.lookup reference.table
  (keys.find? (·.columns = reference.columns)).map IndexedKey.id

end KeyIndex

end DetachedSchema
