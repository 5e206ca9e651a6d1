import DetachedSchema.Proofs.Traversal
import DetachedSchema.Snapshot.Consistency

/-!
# Consistent snapshots

What it means for a snapshot to be consistent, node by node: every id is the place where it stands,
every object names its owner, every path names the containers of its table, every position is that
of a column, and every foreign key has a target with as many columns.  The check of a snapshot finds
no defect exactly when the snapshot is consistent.
-/

namespace DetachedSchema

/-- All positions are those of columns of the table. -/
def Table.InRange (t : Table) (positions : List Nat) : Prop := ∀ p ∈ positions, p < t.columns.length

/-- The foreign key belongs to the table, and its target has as many columns. -/
structure ForeignKey.Consistent (s : Snapshot) (t : Table) (fk : ForeignKey) : Prop where
  table : fk.table = t.id
  columns : t.InRange fk.columns
  target : ∃ key, s.referencedKey? fk = some key ∧ key.columns.length = fk.columns.length

/-- What the table owns stands in its place and refers to what there is. -/
structure Table.Consistent (s : Snapshot) (t : Table) : Prop where
  columns : ∀ (i : Nat) (c : Column), t.columns[i]? = some c → c.table = t.id ∧ c.position = i
  indexes : ∀ x ∈ t.indexes, x.table = t.id ∧ t.InRange (x.columns.map IndexColumn.column)
  uniqueKeys : ∀ (i : Nat) (key : UniqueKey), t.uniqueKeys[i]? = some key →
    key.id = ⟨t.id, i⟩ ∧ t.InRange key.columns
  primaryKey : ∀ p ∈ t.primaryKeyPlace, p < t.uniqueKeys.length
  identity : ∀ i ∈ t.identity, i.table = t.id ∧ i.column < t.columns.length
  foreignKeys : ∀ fk ∈ t.foreignKeys, fk.Consistent s t

/-- The schema stands in its place, owns its objects, and has consistent tables under paths of its
own. -/
structure Schema.Consistent (s : Snapshot) (catalog : String) (id : SchemaId) (schema : Schema) :
    Prop where
  place : schema.id = id
  domains : ∀ d ∈ schema.domains, d.schema = schema.id
  sequences : ∀ q ∈ schema.sequences, q.schema = schema.id
  userTypes : ∀ u ∈ schema.userTypes, u.schema = schema.id
  tables : ∀ (i : Nat) (t : Table), schema.tables[i]? = some t →
    t.id = id.table i ∧ t.path.schemaPath = ⟨catalog, schema.name⟩ ∧ t.Consistent s

/-- The catalog stands in its place, and its schemas are consistent. -/
structure Catalog.Consistent (s : Snapshot) (id : CatalogId) (catalog : Catalog) : Prop where
  place : catalog.id = id
  schemas : ∀ (i : Nat) (schema : Schema), catalog.schemas[i]? = some schema →
    schema.Consistent s catalog.name (id.schema i)

namespace Snapshot

/-- All catalogs are consistent. -/
def Consistent (s : Snapshot) : Prop :=
  ∀ (i : Nat) (catalog : Catalog), s.catalogs[i]? = some catalog → catalog.Consistent s ⟨i⟩

/-! ### The check -/

theorem inRange_iff {t : Table} {positions : List Nat} :
  inRange t positions = true ↔ t.InRange positions
  := by simp [inRange, Table.InRange]

/-- A foreign key passes when it is consistent with its table. -/
theorem checkForeignKey_eq_ok {s : Snapshot} {t : Table} {fk : ForeignKey} :
  s.checkForeignKey t fk = .ok () ↔ fk.Consistent s t
  := by
  rw [checkForeignKey, then_eq_ok, require_eq_ok, Bool.and_eq_true, decide_eq_true_eq, inRange_iff]
  constructor
  · rintro ⟨⟨htable, hcolumns⟩, htarget⟩
    refine ⟨htable, hcolumns, ?_⟩
    cases hkey : s.referencedKey? fk with
    | none =>
      rw [hkey] at htarget
      cases htarget
    | some key =>
      rw [hkey] at htarget
      exact ⟨key, rfl, of_decide_eq_true (require_eq_ok.mp htarget)⟩
  · rintro ⟨htable, hcolumns, key, hkey, hlength⟩
    refine ⟨⟨htable, hcolumns⟩, ?_⟩
    rw [hkey]
    exact require_eq_ok.mpr (decide_eq_true hlength)

/-- A table passes when what it owns is consistent. -/
theorem checkTable_eq_ok {s : Snapshot} {t : Table} :
  s.checkTable t = .ok () ↔ t.Consistent s
  := by
  -- Counted traversals come first, for they are traversals too.
  simp only [checkTable, checkColumns, checkKeys, then_eq_ok, forM_zipIdx_eq_ok]
  simp only [checkIndexes, checkPlaces, then_eq_ok, forM_eq_ok_iff, require_eq_ok,
    checkForeignKey_eq_ok, Bool.and_eq_true, decide_eq_true_eq, inRange_iff, Option.all_eq_true]
  constructor
  · rintro ⟨hcolumns, hindexes, hkeys, ⟨hprimary, hidentity⟩, hforeign⟩
    exact ⟨hcolumns, hindexes, hkeys, hprimary, hidentity, hforeign⟩
  · rintro ⟨hcolumns, hindexes, hkeys, hprimary, hidentity, hforeign⟩
    exact ⟨hcolumns, hindexes, hkeys, ⟨hprimary, hidentity⟩, hforeign⟩

/-- A schema passes when it stands in its place and owns what it holds. -/
theorem checkSchema_eq_ok {s : Snapshot} {catalog : String} {id : SchemaId} {schema : Schema} :
  s.checkSchema catalog id schema = .ok () ↔ schema.Consistent s catalog id
  := by
  simp only [checkSchema, then_eq_ok, forM_zipIdx_eq_ok, require_eq_ok, checkTable_eq_ok,
    Bool.and_eq_true, decide_eq_true_eq, List.all_eq_true]
  constructor
  · rintro ⟨hid, ⟨⟨hdomains, hsequences⟩, huserTypes⟩, htables⟩
    exact ⟨hid, hdomains, hsequences, huserTypes, htables⟩
  · rintro ⟨hid, hdomains, hsequences, huserTypes, htables⟩
    exact ⟨hid, ⟨⟨hdomains, hsequences⟩, huserTypes⟩, htables⟩

/-- A catalog passes when it stands in its place and its schemas are consistent. -/
theorem checkCatalog_eq_ok {s : Snapshot} {id : CatalogId} {catalog : Catalog} :
  s.checkCatalog id catalog = .ok () ↔ catalog.Consistent s id
  := by
  simp only [checkCatalog, then_eq_ok, forM_zipIdx_eq_ok, require_eq_ok, checkSchema_eq_ok,
    decide_eq_true_eq]
  constructor
  · rintro ⟨hid, hschemas⟩
    exact ⟨hid, hschemas⟩
  · rintro ⟨hid, hschemas⟩
    exact ⟨hid, hschemas⟩

/-- The check finds no defect when the snapshot is consistent, and only then. -/
theorem check_eq_ok {s : Snapshot} :
  s.check = .ok () ↔ s.Consistent
  := by simp only [check, forM_zipIdx_eq_ok, checkCatalog_eq_ok, Consistent]

theorem validate_eq_ok {s : Snapshot} :
  s.validate = .ok () ↔ s.Consistent
  := by
  rw [validate, ← check_eq_ok]
  cases s.check with
  | ok u => simp [Except.mapError]
  | error defect => simp [Except.mapError]

end Snapshot

end DetachedSchema
