import DetachedSchema.Proofs.Listing.Snapshot
import DetachedSchema.Snapshot.Source

/-!
# Entries of the snapshot of a listing

The entries that are read back from the snapshot of a listing are those of the listing: positions
turn into the names that they came from, and the key that a foreign key refers to into its table and
columns.  Two things are not read back.  No sequence is live, and the primary key is the first
unique key that declares the same key.
-/

namespace DetachedSchema

variable {find : KeyReference → Option KeyId}

/-! ### What a table owns -/

namespace TableListing

section

variable {t : TableListing} {T : Table} (hT : T.columns = Walk.copyColumns T.id t.columns)

include hT

/-- The positions of an index are read back as the names that they came from. -/
theorem indexEntry_copyIndex {e : IndexEntry} (h : ∀ c ∈ e.columns, t.HasColumn c.name) :
  T.indexEntry (t.copyIndex T.id e) = e
  := by
  have hcolumn : ∀ c ∈ e.columns, ((T.columns[t.place c.name]?).map fun column =>
      (⟨column.name, c.order⟩ : SortedColumnEntry)) = some c := by
    intro c hc
    obtain ⟨column, hcolumn, hname⟩ := Option.map_eq_some_iff.mp (name_at_place T.id (h c hc))
    rw [hT, hcolumn, Option.map_some, hname]
  simp only [Table.indexEntry, copyIndex, List.filterMap_map, Function.comp_def]
  rw [List.filterMap_congr hcolumn, List.filterMap_some]

/-- The positions of a unique key are read back as the names that they came from. -/
theorem keyEntry_copyKey {e : KeyEntry} (h : ∀ name ∈ e.columns, t.HasColumn name) (i : Nat) :
  T.keyEntry (t.copyKey T.id (e, i)) = e
  := by rw [Table.keyEntry, copyKey, columnNames_map_place hT h]

/-- A foreign key that is read back refers to the path and the columns that it referred to. -/
theorem foreignKeyEntry_settle {l : Listing} (hnames : l.NamesColumns) {e : ForeignKeyEntry}
    (h : ∀ name ∈ e.columns, t.HasColumn name) {path : TablePath}
    (hresolves : (t.copyForeignKey T.id path e).Resolves l.key?) :
  l.snapshot.foreignKeyEntry T ((t.copyForeignKey T.id path e).settle l.key?) = .ok e
  := by
  obtain ⟨hsome, -⟩ := hresolves
  obtain ⟨key, hkey⟩ := Option.isSome_iff_exists.mp hsome
  obtain ⟨T', K, hT', hK, hpath, hcolumns, -⟩ := Listing.exists_target hnames hkey
  simp only [PendingKey.settle, hkey, Option.getD_some, PendingKey.resolve,
    Snapshot.foreignKeyEntry, Snapshot.referencedTable?, Snapshot.referencedKey?, hT', hK, hpath,
    hcolumns]
  rw [copyForeignKey, columnNames_map_place hT h]

end

variable (t : TableListing) (id : TableId) (path : TablePath)

theorem entries_columns :
  (t.table find id path).columns.map Column.entry = t.columns
  := by
  simp only [table, draft, Walk.copyColumns, List.map_map]
  apply List.zipIdx_map_fst

variable {t} (h : t.NamesColumns)

include h

theorem entries_indexes :
  (t.table find id path).indexes.map (t.table find id path).indexEntry = t.indexes
  := by
  conv_rhs => rw [← List.map_id t.indexes]
  simp only [table, draft, List.map_map]
  apply List.map_congr_left
  intro e he
  apply indexEntry_copyIndex rfl (h.indexes e he)

theorem entries_uniqueKeys :
  (t.table find id path).uniqueKeys.map (t.table find id path).keyEntry = t.uniqueKeys
  := by
  conv_rhs => rw [← List.zipIdx_map_fst 0 t.uniqueKeys]
  simp only [table, draft, List.map_map]
  apply List.map_congr_left
  rintro ⟨e, i⟩ he
  apply keyEntry_copyKey rfl (h.uniqueKeys e (List.fst_mem_of_mem_zipIdx he))

/-- The primary key that is read back is the first unique key that declares the same key. -/
theorem entry_primaryKey :
  (t.table find id path).primaryKey?.map (t.table find id path).keyEntry
    = t.primaryKey.bind fun primary => t.uniqueKeys.find? (·.sameKey primary)
  := by
  have hplace : ∀ i : Nat, ((t.table find id path).uniqueKeys[i]?).map
      (t.table find id path).keyEntry = t.uniqueKeys[i]? := by
    intro i
    rw [← List.getElem?_map, entries_uniqueKeys id path h]
  cases hprimary : t.primaryKey with
  | none => simp [Table.primaryKey?, table, draft, primaryKeyPlace, hprimary]
  | some primary =>
    have hkey : (t.table find id path).primaryKeyPlace
        = t.uniqueKeys.findIdx? (·.sameKey primary) := by
      simp [table, draft, primaryKeyPlace, hprimary]
    rw [Table.primaryKey?, hkey, Option.bind_some, List.find?_eq_bind_findIdx?_getElem?]
    simp only [Option.bind_eq_bind, Option.map_bind, Function.comp_def, hplace]

/-- All foreign keys are read back when each of them has a target. -/
theorem entries_foreignKeys {l : Listing} (hnames : l.NamesColumns)
    (hresolves : ∀ e ∈ t.foreignKeys, (t.copyForeignKey id path e).Resolves l.key?) :
  (t.table l.key? id path).foreignKeys.mapM (l.snapshot.foreignKeyEntry (t.table l.key? id path))
    = .ok t.foreignKeys
  := by
  conv => enter [1, 2]; rw [table, draft, List.map_map]
  apply mapM_map_eq_ok
  intro e he
  apply foreignKeyEntry_settle rfl hnames (h.foreignKeys e he) (hresolves e he)

end TableListing

/-! ### What a schema and a catalog own -/

namespace SchemaListing

variable (s : SchemaListing) (id : SchemaId) (path : SchemaPath)

theorem entries_domains :
  (s.schema find id path).domains.map Domain.entry = s.domains
  := by
  simp only [schema, draft, List.map_map]
  apply List.map_id

theorem entries_tables :
  (s.schema find id path).tables.map Table.entry = s.tables.map TableListing.entry
  := by
  conv_rhs => rw [← List.zipIdx_map_fst 0 s.tables]
  simp only [schema, List.map_map]
  rfl

/-- No sequence that is read back is live. -/
theorem entries_sequences :
  (s.schema find id path).sequences.map Sequence.entry
    = s.sequences.map fun e => { e with live := false }
  := by
  simp only [schema, draft, List.map_map]
  rfl

theorem entries_userTypes :
  (s.schema find id path).userTypes.map UserType.entry = s.userTypes
  := by
  have hentry : ∀ u, (Walk.copyUserType id u).entry = u := by
    intro u
    rw [Walk.copyUserType, UserType.entry, List.map_map]
    congr 1
    apply List.map_id
  simp only [schema, draft, List.map_map, Function.comp_def, hentry]
  apply List.map_id

end SchemaListing

theorem CatalogListing.entries_schemas (c : CatalogListing) (id : CatalogId) :
  (c.catalog find id).schemas.map Schema.entry = c.schemas.map SchemaListing.entry
  := by
  conv_rhs => rw [← List.zipIdx_map_fst 0 c.schemas]
  simp only [catalog, List.map_map]
  rfl

theorem Listing.entries_catalogs (l : Listing) :
  l.snapshot.catalogs.map Catalog.entry = l.catalogs.map CatalogListing.entry
  := by
  conv_rhs => rw [← List.zipIdx_map_fst 0 l.catalogs]
  simp only [snapshot, List.map_map]
  rfl

end DetachedSchema
