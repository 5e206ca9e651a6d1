import DetachedSchema.Proofs.Detach.Consistency
import DetachedSchema.Proofs.Detach.References

/-!
# Finding the way in a consistent snapshot

In a consistent snapshot an id leads to the node that carries it, the positions of a key lead to as
many names, and a foreign key leads to a table together with one of its keys.
-/

namespace DetachedSchema

/-- Every position has a column, whose name stands in its place. -/
def Table.NamesAll (t : Table) (positions : List Nat) : Prop :=
  (t.columnNames positions).map some = positions.map fun p => (t.columns[p]?).map Column.name

/-- The foreign key leads to a table and to the key of that table with the id that it holds. -/
structure ForeignKey.Leads (s : Snapshot) (fk : ForeignKey) (T : Table) (key : UniqueKey) :
    Prop where
  target : s.referencedTable? fk = some T ∧ s.referencedKey? fk = some key
  id : key.id = fk.key
  owner : key.id.table = T.id
  mem : key ∈ T.uniqueKeys

/-- From the ids and the positions in the table one gets to what they stand for. -/
structure Table.Navigable (s : Snapshot) (t : Table) : Prop where
  table : s.table? t.id = some t
  schema : ∃ schema, s.schema? t.id.schemaId = some schema ∧ schema.tables[t.id.table]? = some t
  uniqueKeys : ∀ key ∈ t.uniqueKeys, s.key? key.id = some key ∧ t.NamesAll key.columns
  primaryKey : t.primaryKey?.isSome ↔ t.primaryKeyPlace.isSome
  foreignKeys : ∀ fk ∈ t.foreignKeys, t.NamesAll fk.columns ∧ ∃ T key, fk.Leads s T key

/-! ### Positions -/

namespace Table

variable {t : Table} {positions : List Nat}

/-- No position in range is passed over. -/
theorem InRange.namesAll (h : t.InRange positions) :
  t.NamesAll positions
  := by
  rw [NamesAll]
  induction positions with
  | nil => rfl
  | cons p positions ih =>
    obtain ⟨hp, hpositions⟩ := List.forall_mem_cons.mp h
    have hcolumn : t.columns[p]? = some t.columns[p] := List.getElem?_eq_getElem hp
    simp only [columnNames, columnsAt, List.filterMap_cons, hcolumn, List.map_cons, Option.map_some]
    exact congrArg _ (ih hpositions)

theorem NamesAll.length_eq (h : t.NamesAll positions) :
  (t.columnNames positions).length = positions.length
  := by simpa using congrArg List.length h

/-- The place of the primary key is that of a key. -/
theorem Consistent.isSome_primaryKey? {s : Snapshot} (h : t.Consistent s) :
  t.primaryKey?.isSome ↔ t.primaryKeyPlace.isSome
  := by
  cases hplace : t.primaryKeyPlace with
  | none => simp [primaryKey?, hplace]
  | some i => simpa [primaryKey?, hplace] using h.primaryKey i hplace

end Table

/-! ### Ids -/

namespace Snapshot

variable {s : Snapshot} {t : Table}

/-- An id leads to the table that stands in its place. -/
theorem table?_eq_some {id : TableId} :
  s.table? id = some t
    ↔ ∃ catalog schema, s.catalogs[id.catalog]? = some catalog
      ∧ catalog.schemas[id.schema]? = some schema ∧ schema.tables[id.table]? = some t
  := by
  simp only [table?, schema?, catalog?, Option.bind_eq_bind, Option.bind_eq_some_iff]
  constructor
  · rintro ⟨schema, ⟨catalog, hcatalog, hschema⟩, ht⟩
    exact ⟨catalog, schema, hcatalog, hschema, ht⟩
  · rintro ⟨catalog, schema, hcatalog, hschema, ht⟩
    exact ⟨schema, ⟨catalog, hcatalog, hschema⟩, ht⟩

/-- The tables of a snapshot are those that some id leads to. -/
theorem mem_tables :
  t ∈ s.tables ↔ ∃ id, s.table? id = some t
  := by
  simp only [tables, schemas, List.mem_flatMap, table?_eq_some]
  constructor
  · rintro ⟨schema, ⟨catalog, hcatalog, hschema⟩, ht⟩
    obtain ⟨i, hi⟩ := List.getElem?_of_mem hcatalog
    obtain ⟨j, hj⟩ := List.getElem?_of_mem hschema
    obtain ⟨k, hk⟩ := List.getElem?_of_mem ht
    exact ⟨⟨i, j, k⟩, catalog, schema, hi, hj, hk⟩
  · rintro ⟨id, catalog, schema, hcatalog, hschema, ht⟩
    exact ⟨schema, ⟨catalog, List.mem_of_getElem? hcatalog, List.mem_of_getElem? hschema⟩,
      List.mem_of_getElem? ht⟩

/-- A path leads to a table of the snapshot. -/
theorem mem_tables_of_find? {path : TablePath} (h : s.find? path = some t) :
  t ∈ s.tables
  := by
  simp only [find?, Option.bind_eq_bind, Option.bind_eq_some_iff] at h
  obtain ⟨catalog, hcatalog, schema, hschema, ht⟩ := h
  apply List.mem_flatMap.mpr
  use schema
  constructor
  · apply List.mem_flatMap.mpr
    exact ⟨catalog, List.mem_of_find?_eq_some hcatalog, List.mem_of_find?_eq_some hschema⟩
  · exact List.mem_of_find?_eq_some ht

namespace Consistent

variable (h : s.Consistent)

include h

/-- A table has the id of its place, and its path names what holds it. -/
theorem of_getElem? {catalog : Catalog} {schema : Schema} {i j k : Nat}
    (hcatalog : s.catalogs[i]? = some catalog) (hschema : catalog.schemas[j]? = some schema)
    (ht : schema.tables[k]? = some t) :
  t.id = ⟨i, j, k⟩ ∧ t.path = ⟨catalog.name, schema.name, t.name⟩ ∧ t.Consistent s
  := by
  obtain ⟨hid, hpath, htable⟩ := ((h i catalog hcatalog).schemas j schema hschema).tables k t ht
  use hid
  constructor
  · rw [← TablePath.table_schemaPath t.path, hpath]
    rfl
  · exact htable

/-- Where an id leads, the table carries that id and is consistent. -/
theorem of_table? {id : TableId} (ht : s.table? id = some t) :
  t.id = id ∧ t.Consistent s
  := by
  obtain ⟨catalog, schema, hcatalog, hschema, ht⟩ := table?_eq_some.mp ht
  obtain ⟨hid, -, htable⟩ := h.of_getElem? hcatalog hschema ht
  exact ⟨hid, htable⟩

/-- A table is where its own id leads, and it is consistent. -/
theorem of_mem_tables (ht : t ∈ s.tables) :
  s.table? t.id = some t ∧ t.Consistent s
  := by
  obtain ⟨id, hid⟩ := mem_tables.mp ht
  obtain ⟨rfl, htable⟩ := h.of_table? hid
  exact ⟨hid, htable⟩

/-- Where the id of a key leads, the key carries that id. -/
theorem of_key? {id : KeyId} {key : UniqueKey} (hkey : s.key? id = some key) :
  key.id = id ∧ ∃ T, s.table? id.table = some T ∧ T.id = id.table ∧ key ∈ T.uniqueKeys
  := by
  obtain ⟨T, hT, hkey⟩ := Option.bind_eq_some_iff.mp hkey
  obtain ⟨hid, htable⟩ := h.of_table? hT
  obtain ⟨hkeyId, -⟩ := htable.uniqueKeys _ key hkey
  constructor
  · rw [hkeyId, hid]
  · exact ⟨T, hT, hid, List.mem_of_getElem? hkey⟩

theorem leads {fk : ForeignKey} (hfk : fk.Consistent s t) :
  ∃ T key, fk.Leads s T key
  := by
  obtain ⟨key, hkey, -⟩ := hfk.target
  obtain ⟨hid, T, hT, hTid, hmem⟩ := h.of_key? hkey
  use T, key
  exact ⟨⟨hT, hkey⟩, hid, by rw [hid, hTid], hmem⟩

/-- In every table of a consistent snapshot one finds the way. -/
theorem navigable (ht : t ∈ s.tables) :
  t.Navigable s
  := by
  obtain ⟨hid, htable⟩ := h.of_mem_tables ht
  constructor
  case table => exact hid
  case schema => exact Option.bind_eq_some_iff.mp hid
  case uniqueKeys =>
    intro key hkey
    obtain ⟨i, hi⟩ := List.getElem?_of_mem hkey
    obtain ⟨hkeyId, hrange⟩ := htable.uniqueKeys i key hi
    constructor
    · rw [hkeyId]
      exact Option.bind_eq_some_iff.mpr ⟨t, hid, hi⟩
    · apply hrange.namesAll
  case primaryKey => apply htable.isSome_primaryKey?
  case foreignKeys =>
    intro fk hfk
    have hconsistent := htable.foreignKeys fk hfk
    exact ⟨hconsistent.columns.namesAll, h.leads hconsistent⟩

end Consistent

/-- What is refused is refused as an invalid snapshot. -/
theorem validate_eq_error {fault : Fault} (h : s.validate = .error fault) :
  ∃ defect, fault = .invalidSnapshot defect
  := by
  rw [validate] at h
  cases hcheck : s.check with
  | ok u =>
    rw [hcheck] at h
    cases h
  | error defect =>
    rw [hcheck] at h
    exact ⟨defect, (Except.error.inj h).symm⟩

end Snapshot

/-- Just the consistent snapshots are accepted, and all others are refused as invalid.  In a
snapshot that is accepted, ids, positions and foreign keys lead to what they stand for. -/
theorem validate_navigable (s : Snapshot) :
  (s.validate = .ok () ↔ s.Consistent)
  ∧ (¬ s.Consistent → ∃ defect, s.validate = .error (.invalidSnapshot defect))
  ∧ (s.validate = .ok () → ∀ t ∈ s.tables, t.Navigable s)
  := by
  use Snapshot.validate_eq_ok
  constructor
  · intro hs
    cases hvalidate : s.validate with
    | ok u => exact absurd (Snapshot.validate_eq_ok.mp hvalidate) hs
    | error fault =>
      obtain ⟨defect, rfl⟩ := Snapshot.validate_eq_error hvalidate
      exact ⟨defect, rfl⟩
  · intro hs t ht
    apply (Snapshot.validate_eq_ok.mp hs).navigable ht

/-- The orders are accepted with their customers, and without them they are refused. -/
theorem validate_navigable_orders :
  let s := Listing.orders.snapshot
  s.Consistent ∧ (∀ t ∈ s.tables, t.Navigable s)
  ∧ ¬ Snapshot.Consistent ⟨s.catalogs.take 1⟩
  := by
  intro s
  obtain ⟨haccepted, -, hnavigable⟩ := validate_navigable s
  obtain ⟨hrest, -, -⟩ := validate_navigable ⟨s.catalogs.take 1⟩
  have hs : s.validate = .ok () := by decide +kernel
  use haccepted.mp hs, hnavigable hs
  rw [← hrest]
  decide +kernel

end DetachedSchema
