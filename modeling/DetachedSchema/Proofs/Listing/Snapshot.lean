import DetachedSchema.Proofs.Detach.KeyIndex
import DetachedSchema.Proofs.Listing.Placed

/-!
# Snapshots of listings

The snapshot of a listing has the draft of every node in its place, and a foreign key refers to the
first unique key of the draft that has what the foreign key names.  Where there is no such key, the
foreign key is given some id; a listing resolves when that never happens.
-/

namespace DetachedSchema

/-- There is a key for the reference, and the foreign key has as many columns. -/
def PendingKey.Resolves (k : PendingKey) (find : KeyReference → Option KeyId) : Prop :=
  (find k.references).isSome ∧ k.columns.length = k.references.columns.length

/-- The foreign key that refers to what is found. -/
def PendingKey.settle (k : PendingKey) (find : KeyReference → Option KeyId) : ForeignKey :=
  k.resolve ((find k.references).getD default)

/-- The table with its foreign keys. -/
def TableListing.table (t : TableListing) (find : KeyReference → Option KeyId) (id : TableId)
    (path : TablePath) : Table :=
  { (t.draft id path).content with
    foreignKeys := (t.draft id path).pending.map (·.settle find) }

/-- The schema with its tables. -/
def SchemaListing.schema (s : SchemaListing) (find : KeyReference → Option KeyId) (id : SchemaId)
    (path : SchemaPath) : Schema :=
  { (s.draft id path).content with
    tables := s.tables.zipIdx.map fun (t, i) => t.table find (id.table i) (path.table t.name) }

/-- The catalog with its schemas. -/
def CatalogListing.catalog (c : CatalogListing) (find : KeyReference → Option KeyId)
    (id : CatalogId) : Catalog :=
  { (c.draft id).content with
    schemas := c.schemas.zipIdx.map fun (s, i) => s.schema find (id.schema i) ⟨c.name, s.name⟩ }

/-! ### Nodes by their names -/

/-- A name leads to the copy of a table with the name. -/
theorem SchemaListing.table?_schema (s : SchemaListing) (find : KeyReference → Option KeyId)
    (id : SchemaId) (path : SchemaPath) (name : String) :
  ((s.schema find id path).table? name = none ∧ ∀ t ∈ s.tables, t.name ≠ name)
    ∨ ∃ (t : TableListing) (i : Nat), s.tables[i]? = some t ∧ t.name = name
      ∧ (s.schema find id path).table? name = some (t.table find (id.table i) (path.table t.name))
  := by
  apply find?_map_zipIdx
  rintro ⟨t, i⟩
  apply decide_eq_true_iff

/-- A name leads to the copy of a schema with the name. -/
theorem CatalogListing.schema?_catalog (c : CatalogListing) (find : KeyReference → Option KeyId)
    (id : CatalogId) (name : String) :
  ((c.catalog find id).schema? name = none ∧ ∀ s ∈ c.schemas, s.name ≠ name)
    ∨ ∃ (s : SchemaListing) (i : Nat), c.schemas[i]? = some s ∧ s.name = name
      ∧ (c.catalog find id).schema? name = some (s.schema find (id.schema i) ⟨c.name, s.name⟩)
  := by
  apply find?_map_zipIdx
  rintro ⟨s, i⟩
  apply decide_eq_true_iff

namespace Listing

/-- The first unique key of the draft that a reference names. -/
def key? (l : Listing) (r : KeyReference) : Option KeyId :=
  firstKey? (Snapshot.tables ⟨l.draft.content⟩) r

/-- Every foreign key has a target with as many columns. -/
def Resolves (l : Listing) : Prop := ∀ k ∈ l.draft.pending, k.Resolves l.key?

theorem Resolves.placed {l : Listing} (h : l.Resolves) {p : PlacedTable} (hp : p ∈ l.placed) :
  ∀ e ∈ p.listing.foreignKeys, (p.listing.copyForeignKey p.id p.path e).Resolves l.key?
  := by
  intro e he
  apply h
  rw [pending_draft]
  apply List.mem_flatMap.mpr
  exact ⟨p, hp, List.mem_map_of_mem he⟩

/-- A listing resolves when there is a key for every foreign key of its tables, with as many
columns. -/
theorem resolves_iff_forall_placed {l : Listing} :
  l.Resolves ↔ ∀ p ∈ l.placed, ∀ e ∈ p.listing.foreignKeys,
    (l.key? e.references).isSome ∧ e.columns.length = e.references.columns.length
  := by
  simp only [Resolves, pending_draft, PlacedTable.draft, TableListing.draft,
    List.forall_mem_flatMap, List.forall_mem_map, PendingKey.Resolves, TableListing.copyForeignKey,
    List.length_map]

/-- The snapshot of a listing, entry by entry. -/
def snapshot (l : Listing) : Snapshot :=
  ⟨l.catalogs.zipIdx.map fun (c, i) => c.catalog l.key? ⟨i⟩⟩

/-- A name leads to the copy of a catalog with the name. -/
theorem catalogNamed?_snapshot (l : Listing) (name : String) :
  (l.snapshot.catalogNamed? name = none ∧ ∀ c ∈ l.catalogs, c.name ≠ name)
    ∨ ∃ (c : CatalogListing) (i : Nat), l.catalogs[i]? = some c ∧ c.name = name
      ∧ l.snapshot.catalogNamed? name = some (c.catalog l.key? ⟨i⟩)
  := by
  apply find?_map_zipIdx
  rintro ⟨c, i⟩
  apply decide_eq_true_iff

/-! ### Nodes by their places -/

theorem getElem?_catalogs {l : Listing} {i : Nat} {C : Catalog} :
  l.snapshot.catalogs[i]? = some C
    ↔ ∃ c, l.catalogs[i]? = some c ∧ C = c.catalog l.key? ⟨i⟩
  := getElem?_map_zipIdx

/-- The tables of the snapshot are those of the listing. -/
theorem tables_snapshot (l : Listing) :
  l.snapshot.tables = l.placed.map fun p => p.listing.table l.key? p.id p.path
  := by
  simp [Snapshot.tables, Snapshot.schemas, snapshot, CatalogListing.catalog, SchemaListing.schema,
    placed, CatalogListing.placed, SchemaListing.placed, List.map_flatMap, List.flatMap_map,
    List.flatMap_assoc, Function.comp_def]

/-- The foreign keys of the snapshot are those of the tables of the listing. -/
theorem mem_foreignKeys_snapshot {l : Listing} {fk : ForeignKey} :
  fk ∈ l.snapshot.foreignKeys ↔ ∃ p ∈ l.placed, ∃ e ∈ p.listing.foreignKeys,
    (p.listing.copyForeignKey p.id p.path e).settle l.key? = fk
  := by
  simp only [Snapshot.foreignKeys, tables_snapshot, List.flatMap_map, List.mem_flatMap,
    TableListing.table, TableListing.draft, List.map_map, List.mem_map, Function.comp_apply]

/-- A schema has the id of its place. -/
theorem schema?_snapshot {l : Listing} {c : CatalogListing} {s : SchemaListing} {i j : Nat}
    (hc : l.catalogs[i]? = some c) (hs : c.schemas[j]? = some s) :
  l.snapshot.schema? ⟨i, j⟩ = some (s.schema l.key? ⟨i, j⟩ ⟨c.name, s.name⟩)
  := by
  have hcatalog := getElem?_catalogs.mpr ⟨c, hc, rfl⟩
  have hschema : (c.catalog l.key? ⟨i⟩).schemas[j]? = _ := getElem?_map_zipIdx.mpr ⟨s, hs, rfl⟩
  simp only [Snapshot.schema?, Snapshot.catalog?, SchemaId.catalogId, hcatalog, Option.bind_eq_bind,
    Option.bind_some]
  exact hschema

/-- A table has the id of its place. -/
theorem table?_snapshot {l : Listing} {p : PlacedTable} (hp : p ∈ l.placed) :
  l.snapshot.table? p.id = some (p.listing.table l.key? p.id p.path)
  := by
  obtain ⟨c, i, s, j, t, k, hc, hs, ht, rfl⟩ := exists_of_mem_placed hp
  have htable : (s.schema l.key? ⟨i, j⟩ ⟨c.name, s.name⟩).tables[k]? = _ :=
    getElem?_map_zipIdx.mpr ⟨t, ht, rfl⟩
  have hschema : l.snapshot.schema? (TableId.schemaId ⟨i, j, k⟩) = _ := schema?_snapshot hc hs
  simp only [Snapshot.table?, hschema, Option.bind_eq_bind, Option.bind_some]
  exact htable

/-- A key that is found is at its place in a table with the path, and has the columns. -/
theorem exists_of_key? {l : Listing} (hnames : l.NamesColumns) {r : KeyReference} {id : KeyId}
    (h : l.key? r = some id) :
  ∃ p ∈ l.placed, p.path = r.table ∧ ∃ (e : KeyEntry) (i : Nat),
    p.listing.uniqueKeys[i]? = some e ∧ e.columns = r.columns ∧ id = ⟨p.id, i⟩
  := by
  obtain ⟨T, hT, hpath, key, hkey, hcolumns, rfl⟩ := exists_of_firstKey? h
  rw [tables_draft] at hT
  obtain ⟨p, hp, rfl⟩ := List.mem_map.mp hT
  obtain ⟨⟨e, i⟩, he, rfl⟩ := List.mem_map.mp hkey
  have he := List.mk_mem_zipIdx_iff_getElem?.mp he
  have hplaces := (forall_placed hnames p hp).uniqueKeys e (List.mem_of_getElem? he)
  have hnames := TableListing.columnNames_map_place (T := p.draft.content) rfl hplaces
  exact ⟨p, hp, hpath, e, i, he, hnames.symm.trans hcolumns, rfl⟩

/-- What is found for a reference are a table of the snapshot with the path and a key of it over the
columns. -/
theorem exists_target {l : Listing} (hnames : l.NamesColumns) {r : KeyReference} {id : KeyId}
    (h : l.key? r = some id) :
  ∃ T key, l.snapshot.table? id.table = some T ∧ l.snapshot.key? id = some key
    ∧ T.path = r.table ∧ T.columnNames key.columns = r.columns
    ∧ key.columns.length = r.columns.length
  := by
  obtain ⟨p, hp, hpath, e, i, he, hcolumns, rfl⟩ := exists_of_key? hnames h
  have hplaces := (forall_placed hnames p hp).uniqueKeys e (List.mem_of_getElem? he)
  have hkey : (p.listing.table l.key? p.id p.path).uniqueKeys[i]? = _ :=
    getElem?_map_zipIdx.mpr ⟨e, he, rfl⟩
  use p.listing.table l.key? p.id p.path, p.listing.copyKey p.id (e, i), table?_snapshot hp
  constructor
  · simp only [Snapshot.key?, table?_snapshot hp]
    exact hkey
  · rw [← hcolumns]
    use hpath, TableListing.columnNames_map_place rfl hplaces
    apply List.length_map

/-- A foreign key of the snapshot refers to a table of the listing and to a unique key of it. -/
theorem exists_referenced {l : Listing} (hnames : l.NamesColumns) (hresolves : l.Resolves)
    {fk : ForeignKey} (hfk : fk ∈ l.snapshot.foreignKeys) :
  ∃ p ∈ l.placed, fk.key.table = p.id
    ∧ ∃ key, (p.listing.table l.key? p.id p.path).uniqueKeys[fk.key.key]? = some key
  := by
  obtain ⟨p, hp, e, he, rfl⟩ := mem_foreignKeys_snapshot.mp hfk
  have hsome : (l.key? e.references).isSome := (hresolves.placed hp e he).1
  obtain ⟨id, hid⟩ := Option.isSome_iff_exists.mp hsome
  obtain ⟨target, htarget, -, key, i, hkey, -, rfl⟩ := exists_of_key? hnames hid
  have hsettled : ((p.listing.copyForeignKey p.id p.path e).settle l.key?).key = ⟨target.id, i⟩ :=
    congrArg (Option.getD · default) hid
  rw [hsettled]
  exact ⟨target, htarget, rfl, _, getElem?_map_zipIdx.mpr ⟨key, hkey, rfl⟩⟩

end Listing

end DetachedSchema
