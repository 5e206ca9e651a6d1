import DetachedSchema.Proofs.Listing.Draft
import DetachedSchema.Proofs.Traversal
import DetachedSchema.Snapshot.Basic

/-!
# The tables of a listing

All tables of a listing in the order in which a walk comes to them, each with the id that its copy
has and with its path.  No two tables have one id.  They may share a path, unless siblings have
names of their own.
-/

namespace DetachedSchema

/-- A table of a listing with its place. -/
structure PlacedTable where
  id : TableId
  path : TablePath
  listing : TableListing

/-- The copy of the table. -/
def PlacedTable.draft (p : PlacedTable) : Draft Table := p.listing.draft p.id p.path

/-- The tables of a schema. -/
def SchemaListing.placed (s : SchemaListing) (id : SchemaId) (path : SchemaPath) :
    List PlacedTable :=
  s.tables.zipIdx.map fun (t, i) => ⟨id.table i, path.table t.name, t⟩

/-- The tables of a catalog, schema by schema. -/
def CatalogListing.placed (c : CatalogListing) (id : CatalogId) : List PlacedTable :=
  c.schemas.zipIdx.flatMap fun (s, i) => s.placed (id.schema i) ⟨c.name, s.name⟩

/-- All tables of a listing, catalog by catalog and schema by schema. -/
def Listing.placed (l : Listing) : List PlacedTable :=
  l.catalogs.zipIdx.flatMap fun (c, i) => c.placed ⟨i⟩

/-- Siblings have names of their own. -/
structure Listing.DistinctNames (l : Listing) : Prop where
  catalogs : (l.catalogs.map CatalogListing.name).Nodup
  schemas : ∀ c ∈ l.catalogs, (c.schemas.map SchemaListing.name).Nodup
  tables : ∀ c ∈ l.catalogs, ∀ s ∈ c.schemas, (s.tables.map TableListing.name).Nodup

theorem SchemaListing.mem_placed {s : SchemaListing} {id : SchemaId} {path : SchemaPath}
    {p : PlacedTable} :
  p ∈ s.placed id path
    ↔ ∃ (t : TableListing) (i : Nat), s.tables[i]? = some t ∧ p = ⟨id.table i, path.table t.name, t⟩
  := by
  simp only [placed, List.mem_map, Prod.exists, List.mk_mem_zipIdx_iff_getElem?, eq_comm]

theorem CatalogListing.mem_placed {c : CatalogListing} {id : CatalogId} {p : PlacedTable} :
  p ∈ c.placed id
    ↔ ∃ (s : SchemaListing) (i : Nat), c.schemas[i]? = some s
      ∧ p ∈ s.placed (id.schema i) ⟨c.name, s.name⟩
  := by
  simp only [placed, List.mem_flatMap, Prod.exists, List.mk_mem_zipIdx_iff_getElem?]

theorem SchemaListing.nodup_ids (s : SchemaListing) (id : SchemaId) (path : SchemaPath) :
  ((s.placed id path).map PlacedTable.id).Nodup
  := by
  apply List.Nodup.of_map TableId.table
  simp only [placed, List.map_map, Function.comp_def, SchemaId.table]
  apply List.nodup_zipIdx_map_snd

theorem CatalogListing.nodup_ids (c : CatalogListing) (id : CatalogId) :
  ((c.placed id).map PlacedTable.id).Nodup
  := by
  rw [placed, List.map_flatMap]
  apply nodup_flatMap_zipIdx TableId.schema
  · rintro ⟨s, i⟩ -
    apply SchemaListing.nodup_ids
  · rintro ⟨s, i⟩ - y hy
    obtain ⟨p, hp, rfl⟩ := List.mem_map.mp hy
    obtain ⟨t, j, -, rfl⟩ := SchemaListing.mem_placed.mp hp
    rfl

namespace Listing

theorem mem_placed {l : Listing} {p : PlacedTable} :
  p ∈ l.placed ↔ ∃ (c : CatalogListing) (i : Nat), l.catalogs[i]? = some c ∧ p ∈ c.placed ⟨i⟩
  := by
  simp only [placed, List.mem_flatMap, Prod.exists, List.mk_mem_zipIdx_iff_getElem?]

/-- The table at a place is among the tables. -/
theorem mem_placed_of_getElem? {l : Listing} {c : CatalogListing} {s : SchemaListing}
    {t : TableListing} {i j k : Nat} (hc : l.catalogs[i]? = some c) (hs : c.schemas[j]? = some s)
    (ht : s.tables[k]? = some t) :
  (⟨⟨i, j, k⟩, ⟨c.name, s.name, t.name⟩, t⟩ : PlacedTable) ∈ l.placed
  := by
  apply mem_placed.mpr
  use c, i, hc
  apply CatalogListing.mem_placed.mpr
  use s, j, hs
  apply SchemaListing.mem_placed.mpr
  use t, k, ht
  rfl

/-- Every table stands at a place in a schema, which stands at a place in a catalog. -/
theorem exists_of_mem_placed {l : Listing} {p : PlacedTable} (hp : p ∈ l.placed) :
  ∃ (c : CatalogListing) (i : Nat) (s : SchemaListing) (j : Nat) (t : TableListing) (k : Nat),
    l.catalogs[i]? = some c ∧ c.schemas[j]? = some s ∧ s.tables[k]? = some t
    ∧ p = ⟨⟨i, j, k⟩, ⟨c.name, s.name, t.name⟩, t⟩
  := by
  obtain ⟨c, i, hc, hp⟩ := mem_placed.mp hp
  obtain ⟨s, j, hs, hp⟩ := CatalogListing.mem_placed.mp hp
  obtain ⟨t, k, ht, hp⟩ := SchemaListing.mem_placed.mp hp
  exact ⟨c, i, s, j, t, k, hc, hs, ht, hp⟩

/-- No two tables have one id. -/
theorem nodup_ids (l : Listing) :
  (l.placed.map PlacedTable.id).Nodup
  := by
  rw [placed, List.map_flatMap]
  apply nodup_flatMap_zipIdx TableId.catalog
  · rintro ⟨c, i⟩ -
    apply CatalogListing.nodup_ids
  · rintro ⟨c, i⟩ - y hy
    obtain ⟨p, hp, rfl⟩ := List.mem_map.mp hy
    obtain ⟨s, j, -, hp⟩ := CatalogListing.mem_placed.mp hp
    obtain ⟨t, k, -, rfl⟩ := SchemaListing.mem_placed.mp hp
    rfl

/-- When siblings have names of their own, no two tables share a path. -/
theorem eq_of_path_eq {l : Listing} (hdistinct : l.DistinctNames) {p p' : PlacedTable}
    (hp : p ∈ l.placed) (hp' : p' ∈ l.placed) (hpath : p.path = p'.path) :
  p = p'
  := by
  obtain ⟨c, i, s, j, t, k, hc, hs, ht, rfl⟩ := exists_of_mem_placed hp
  obtain ⟨c', i', s', j', t', k', hc', hs', ht', rfl⟩ := exists_of_mem_placed hp'
  obtain ⟨hcatalog, hschema, htable⟩ := TablePath.mk.inj hpath
  obtain ⟨rfl, rfl⟩ := getElem?_inj_of_nodup hdistinct.catalogs hc hc' hcatalog
  have hc := List.mem_of_getElem? hc
  obtain ⟨rfl, rfl⟩ := getElem?_inj_of_nodup (hdistinct.schemas c hc) hs hs' hschema
  have hs := List.mem_of_getElem? hs
  obtain ⟨rfl, rfl⟩ := getElem?_inj_of_nodup (hdistinct.tables c hc s hs) ht ht' htable
  rfl

theorem nodup_paths {l : Listing} (hdistinct : l.DistinctNames) :
  (l.placed.map PlacedTable.path).Nodup
  := by
  apply List.Nodup.map_on
  · intro p hp p' hp'
    apply eq_of_path_eq hdistinct hp hp'
  · apply List.Nodup.of_map PlacedTable.id l.nodup_ids

/-- A property of all tables is one of the tables with their places. -/
theorem forall_placed {l : Listing} {P : TableListing → Prop}
    (h : ∀ c ∈ l.catalogs, ∀ s ∈ c.schemas, ∀ t ∈ s.tables, P t) :
  ∀ p ∈ l.placed, P p.listing
  := by
  intro p hp
  obtain ⟨c, i, s, j, t, k, hc, hs, ht, rfl⟩ := exists_of_mem_placed hp
  apply h c (List.mem_of_getElem? hc) s (List.mem_of_getElem? hs) t (List.mem_of_getElem? ht)

/-- A property of the tables with their places is one of all tables. -/
theorem forall_of_placed {l : Listing} {P : TableListing → Prop}
    (h : ∀ p ∈ l.placed, P p.listing) :
  ∀ c ∈ l.catalogs, ∀ s ∈ c.schemas, ∀ t ∈ s.tables, P t
  := by
  intro c hc s hs t ht
  obtain ⟨i, hc⟩ := List.getElem?_of_mem hc
  obtain ⟨j, hs⟩ := List.getElem?_of_mem hs
  obtain ⟨k, ht⟩ := List.getElem?_of_mem ht
  apply h _ (mem_placed_of_getElem? hc hs ht)

/-- The tables of the draft are the copies of the tables of the listing. -/
theorem tables_draft (l : Listing) :
  Snapshot.tables ⟨l.draft.content⟩ = l.placed.map fun p => p.draft.content
  := by
  simp [Snapshot.tables, Snapshot.schemas, draft, CatalogListing.draft, SchemaListing.draft,
    Draft.all, placed, CatalogListing.placed, SchemaListing.placed, PlacedTable.draft,
    List.map_flatMap, List.flatMap_map, List.flatMap_assoc, Function.comp_def]

/-- The foreign keys that are put aside come table by table. -/
theorem pending_draft (l : Listing) :
  l.draft.pending = l.placed.flatMap fun p => p.draft.pending
  := by
  simp [draft, CatalogListing.draft, SchemaListing.draft, Draft.all, placed, CatalogListing.placed,
    SchemaListing.placed, PlacedTable.draft, List.flatMap_map, List.flatMap_assoc]

end Listing

end DetachedSchema
