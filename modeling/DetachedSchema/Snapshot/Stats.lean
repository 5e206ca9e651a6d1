import DetachedSchema.Snapshot.Basic

/-!
# Counts

How many entities of each kind a snapshot holds.
-/

namespace DetachedSchema

/-- The numbers of entities of each kind. -/
structure Stats where
  catalogs : Nat := 0
  schemas : Nat := 0
  domains : Nat := 0
  tables : Nat := 0
  columns : Nat := 0
  indexes : Nat := 0
  uniqueKeys : Nat := 0
  primaryKeys : Nat := 0
  foreignKeys : Nat := 0
  checks : Nat := 0
  sequences : Nat := 0
  userTypes : Nat := 0
deriving DecidableEq

/-- The number of all items that `part` gives for the members of a list. -/
def countAll {α β : Type} (part : α → List β) (owners : List α) : Nat :=
  (owners.flatMap part).length

/-- The numbers of entities of a snapshot. -/
def Snapshot.stats (s : Snapshot) : Stats where
  catalogs := s.catalogs.length
  schemas := s.schemas.length
  domains := countAll Schema.domains s.schemas
  tables := s.tables.length
  columns := countAll Table.columns s.tables
  indexes := countAll Table.indexes s.tables
  uniqueKeys := countAll Table.uniqueKeys s.tables
  primaryKeys := s.tables.countP (·.primaryKeyPlace.isSome)
  foreignKeys := countAll Table.foreignKeys s.tables
  checks := countAll Table.checks s.tables
  sequences := countAll Schema.sequences s.schemas
  userTypes := countAll Schema.userTypes s.schemas

end DetachedSchema
