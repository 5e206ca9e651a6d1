import DetachedSchema.Filter
import DetachedSchema.Proofs.Snapshot.Renumbering

/-!
# Filtered snapshots

What a filter leaves of a snapshot: the catalogs, schemas and tables that it keeps, in their order,
and the foreign keys that refer to tables that it keeps.  What is left stands in other places, so
that all ids change.  What a filter leaves of a listing is said in the same way, without ids; its
snapshot is what the filter leaves of the snapshot of the listing.
-/

namespace DetachedSchema

namespace Snapshot

variable (s : Snapshot) (f : Filter)

/-! ### What is left of a snapshot -/

/-- The id of a catalog among the catalogs that are kept. -/
def filteredCatalogId (i : CatalogId) : CatalogId :=
  ⟨placeAmong (fun c => f.keepsCatalog c.name) s.catalogs i.index⟩

/-- The id of a schema among the schemas that are kept. -/
def filteredSchemaId (i : SchemaId) : SchemaId :=
  (s.filteredCatalogId f i.catalogId).schema <|
    match s.catalog? i.catalogId with
    | some c => placeAmong (fun x => f.keepsSchema ⟨c.name, x.name⟩) c.schemas i.schema
    | none => 0

/-- The id of a table among the tables that are kept. -/
def filteredTableId (i : TableId) : TableId :=
  (s.filteredSchemaId f i.schemaId).table <|
    match s.schema? i.schemaId with
    | some x => placeAmong (fun t => f.keepsTable t.path) x.tables i.table
    | none => 0

/-- Whether a foreign key refers to a table that is kept. -/
def keepsForeignKey (fk : ForeignKey) : Bool :=
  (s.referencedTable? fk).any fun t => f.keepsTable t.path

/-- The table with its foreign keys that are kept. -/
def filteredTable (t : Table) : Table :=
  Table.renumbered (s.filteredTableId f)
    { t with foreignKeys := t.foreignKeys.filter (s.keepsForeignKey f) }

/-- The schema with its tables that are kept. -/
def filteredSchema (x : Schema) : Schema :=
  { x with
    id := s.filteredSchemaId f x.id
    domains := x.domains.map fun d => { d with schema := s.filteredSchemaId f d.schema }
    tables := (x.tables.filter fun t => f.keepsTable t.path).map (s.filteredTable f)
    sequences := x.sequences.map fun q => { q with schema := s.filteredSchemaId f q.schema }
    userTypes := x.userTypes.map fun u => { u with schema := s.filteredSchemaId f u.schema } }

/-- The catalog with its schemas that are kept. -/
def filteredCatalog (c : Catalog) : Catalog :=
  { c with
    id := s.filteredCatalogId f c.id
    schemas := (c.schemas.filter fun x => f.keepsSchema ⟨c.name, x.name⟩).map (s.filteredSchema f) }

/-- What the filter leaves of the snapshot. -/
def filtered : Snapshot :=
  ⟨(s.catalogs.filter fun c => f.keepsCatalog c.name).map (s.filteredCatalog f)⟩

end Snapshot

/-! ### What is left of a listing -/

section

variable (f : Filter)

/-- The table with its foreign keys that are kept. -/
def TableListing.filtered (t : TableListing) : TableListing :=
  { t with foreignKeys := t.foreignKeys.filter fun e => f.keepsTable e.references.table }

/-- The schema with its tables that are kept. -/
def SchemaListing.filtered (s : SchemaListing) (path : SchemaPath) : SchemaListing :=
  { s with
    tables := (s.tables.filter fun t => f.keepsTable (path.table t.name)).map (·.filtered f) }

/-- The catalog with its schemas that are kept. -/
def CatalogListing.filtered (c : CatalogListing) : CatalogListing :=
  { c with
    schemas := (c.schemas.filter fun s => f.keepsSchema ⟨c.name, s.name⟩).map fun s =>
      s.filtered f ⟨c.name, s.name⟩ }

/-- What the filter leaves of the listing. -/
def Listing.filtered (l : Listing) : Listing :=
  ⟨(l.catalogs.filter fun c => f.keepsCatalog c.name).map (·.filtered f)⟩

/-- The table that is left, under its new id. -/
def PlacedTable.filtered (ν : TableId → TableId) (p : PlacedTable) : PlacedTable :=
  ⟨ν p.id, p.path, p.listing.filtered f⟩

end

/-! ### New ids -/

section

variable {l : Listing} {c : CatalogListing} {s : SchemaListing} {f : Filter} {i j : Nat}

theorem Filter.keepsSchema_of_keepsTable {p : TablePath} (h : f.keepsTable p) :
  f.keepsSchema p.schemaPath
  := by
  simp only [keepsTable, Bool.and_eq_true] at h
  exact h.1.1

theorem Filter.keepsCatalog_of_keepsSchema {p : SchemaPath} (h : f.keepsSchema p) :
  f.keepsCatalog p.catalog
  := by
  simp only [keepsSchema, Bool.and_eq_true] at h
  exact h.1

namespace Listing

theorem filteredCatalogId_snapshot (l : Listing) (f : Filter) (i : Nat) :
  l.snapshot.filteredCatalogId f ⟨i⟩
    = ⟨placeAmong (fun c => f.keepsCatalog c.name) l.catalogs i⟩
  := by
  rw [Snapshot.filteredCatalogId, snapshot, placeAmong_map_zipIdx]
  exact fun _ => rfl

theorem filteredSchemaId_snapshot (hc : l.catalogs[i]? = some c) (f : Filter) (j : Nat) :
  l.snapshot.filteredSchemaId f ⟨i, j⟩
    = (l.snapshot.filteredCatalogId f ⟨i⟩).schema
      (placeAmong (fun s => f.keepsSchema ⟨c.name, s.name⟩) c.schemas j)
  := by
  have hcatalog : l.snapshot.catalog? (SchemaId.catalogId ⟨i, j⟩) = _ :=
    getElem?_catalogs.mpr ⟨c, hc, rfl⟩
  rw [Snapshot.filteredSchemaId, hcatalog]
  simp only [CatalogListing.catalog]
  rw [placeAmong_map_zipIdx]
  · rfl
  · exact fun _ => rfl

theorem filteredTableId_snapshot (hc : l.catalogs[i]? = some c) (hs : c.schemas[j]? = some s)
    (f : Filter) (k : Nat) :
  l.snapshot.filteredTableId f ⟨i, j, k⟩
    = (l.snapshot.filteredSchemaId f ⟨i, j⟩).table
      (placeAmong (fun t => f.keepsTable ⟨c.name, s.name, t.name⟩) s.tables k)
  := by
  have hschema : l.snapshot.schema? (TableId.schemaId ⟨i, j, k⟩) = _ := schema?_snapshot hc hs
  rw [Snapshot.filteredTableId, hschema]
  simp only [SchemaListing.schema]
  rw [placeAmong_map_zipIdx]
  · rfl
  · exact fun _ => rfl

end Listing

/-! ### Tables -/

theorem SchemaListing.placed_filtered (hc : l.catalogs[i]? = some c) (hs : c.schemas[j]? = some s)
    (f : Filter) :
  (s.filtered f ⟨c.name, s.name⟩).placed (l.snapshot.filteredSchemaId f ⟨i, j⟩) ⟨c.name, s.name⟩
    = ((s.placed ⟨i, j⟩ ⟨c.name, s.name⟩).filter fun p => f.keepsTable p.path).map
      (·.filtered f (l.snapshot.filteredTableId f))
  := by
  apply map_zipIdx_filter
  · exact fun _ => rfl
  · intro t k _
    simp only [PlacedTable.filtered, SchemaId.table, Listing.filteredTableId_snapshot hc hs]
    rfl

theorem CatalogListing.placed_filtered (hc : l.catalogs[i]? = some c) (f : Filter) :
  (c.filtered f).placed (l.snapshot.filteredCatalogId f ⟨i⟩)
    = ((c.placed ⟨i⟩).filter fun p => f.keepsTable p.path).map
      (·.filtered f (l.snapshot.filteredTableId f))
  := by
  rw [placed, placed, List.filter_flatMap, List.map_flatMap]
  apply flatMap_zipIdx_filter
  · intro s j hs _
    have hschema := SchemaListing.placed_filtered hc hs f
    rw [Listing.filteredSchemaId_snapshot hc] at hschema
    apply hschema
  · intro s j _ hkeep
    rw [List.map_eq_nil_iff, List.filter_eq_nil_iff]
    intro p hp hkept
    obtain ⟨t, k, -, rfl⟩ := SchemaListing.mem_placed.mp hp
    apply hkeep (Filter.keepsSchema_of_keepsTable hkept)

namespace Listing

/-- The tables that are left are the tables that are kept. -/
theorem placed_filtered (l : Listing) (f : Filter) :
  (l.filtered f).placed
    = (l.placed.filter fun p => f.keepsTable p.path).map
      (·.filtered f (l.snapshot.filteredTableId f))
  := by
  rw [placed, placed, List.filter_flatMap, List.map_flatMap]
  apply flatMap_zipIdx_filter
  · intro c i hc _
    have hcatalog := CatalogListing.placed_filtered hc f
    rw [filteredCatalogId_snapshot] at hcatalog
    apply hcatalog
  · intro c i _ hkeep
    rw [List.map_eq_nil_iff, List.filter_eq_nil_iff]
    intro p hp hkept
    obtain ⟨s, j, -, hp⟩ := CatalogListing.mem_placed.mp hp
    obtain ⟨t, k, -, rfl⟩ := SchemaListing.mem_placed.mp hp
    apply hkeep
    apply Filter.keepsCatalog_of_keepsSchema (Filter.keepsSchema_of_keepsTable hkept)

/-- A reference to a table that is kept leads to the key that it led to. -/
theorem key?_filtered {r : KeyReference} (h : f.keepsTable r.table) :
  (l.filtered f).key? r = (l.key? r).map (·.renumbered (l.snapshot.filteredTableId f))
  := by
  have hpath : ∀ p : PlacedTable,
      (decide (p.path = r.table) && f.keepsTable p.path) = decide (p.path = r.table) := by
    intro p
    by_cases hp : p.path = r.table
    · rw [hp, h, Bool.and_true]
    · simp [hp]
  apply firstKey?_of_filter_path
  rw [tables_draft, tables_draft, placed_filtered]
  simp only [List.filter_map, List.map_map, List.filter_filter]
  simp only [Function.comp_def, PlacedTable.draft, PlacedTable.filtered, TableListing.draft, hpath]
  apply List.map_congr_left
  intro p _
  apply TableListing.content_draft_renumbered p.listing

theorem namesColumns_filtered (h : l.NamesColumns) (f : Filter) :
  (l.filtered f).NamesColumns
  := by
  simp only [NamesColumns, filtered, CatalogListing.filtered, SchemaListing.filtered,
    List.forall_mem_map, List.mem_filter, and_imp]
  intro c hc _ s hs _ t ht _
  obtain ⟨hindexes, huniqueKeys, hforeignKeys⟩ := h c hc s hs t ht
  use hindexes, huniqueKeys
  intro e he
  apply hforeignKeys e (List.mem_of_mem_filter he)

/-- A foreign key that is kept had a target, which is kept with it. -/
theorem resolves_filtered (h : l.Resolves) (f : Filter) :
  (l.filtered f).Resolves
  := by
  rw [resolves_iff_forall_placed] at h ⊢
  simp only [placed_filtered, List.forall_mem_map, List.mem_filter, and_imp]
  intro p hp _ e he
  obtain ⟨he, hkept⟩ := List.mem_filter.mp he
  rw [key?_filtered hkept, Option.isSome_map]
  apply h p hp e he

end Listing

/-! ### The snapshot of what is left -/

section

variable (hnames : l.NamesColumns) (hresolves : l.Resolves)

include hnames hresolves

namespace Listing

/-- A foreign key is kept when the table is kept that its entry refers to. -/
theorem keepsForeignKey_settle {p : PlacedTable} (hp : p ∈ l.placed) {e : ForeignKeyEntry}
    (he : e ∈ p.listing.foreignKeys) (f : Filter) :
  l.snapshot.keepsForeignKey f ((p.listing.copyForeignKey p.id p.path e).settle l.key?)
    = f.keepsTable e.references.table
  := by
  obtain ⟨hsome, -⟩ := hresolves.placed hp e he
  obtain ⟨key, hkey⟩ := Option.isSome_iff_exists.mp hsome
  obtain ⟨T, K, hT, -, hpath, -⟩ := exists_target hnames hkey
  simp only [PendingKey.settle, hkey, Option.getD_some, PendingKey.resolve,
    Snapshot.keepsForeignKey, Snapshot.referencedTable?, hT, Option.any_some, hpath]
  rfl

/-- The copy of a table that is left is what is left of its copy. -/
theorem table_filtered {p : PlacedTable} (hp : p ∈ l.placed) (f : Filter) :
  (p.listing.filtered f).table (l.filtered f).key? (l.snapshot.filteredTableId f p.id) p.path
    = l.snapshot.filteredTable f (p.listing.table l.key? p.id p.path)
  := by
  have hforeignKeys : (((p.listing.filtered f).foreignKeys.map
        (p.listing.copyForeignKey p.id p.path)).map (·.settle l.key?))
      = ((p.listing.foreignKeys.map (p.listing.copyForeignKey p.id p.path)).map
        (·.settle l.key?)).filter (l.snapshot.keepsForeignKey f) := by
    simp only [TableListing.filtered, List.filter_map, List.map_map]
    congr 1
    apply List.filter_congr
    intro e he
    apply (keepsForeignKey_settle hnames hresolves hp he f).symm
  have htable : (p.listing.filtered f).table (l.filtered f).key?
        (l.snapshot.filteredTableId f p.id) p.path
      = ((p.listing.filtered f).table l.key? p.id p.path).renumbered
        (l.snapshot.filteredTableId f) := by
    apply TableListing.table_renumbered
    intro e he
    obtain ⟨he, hkept⟩ := List.mem_filter.mp he
    use (hresolves.placed hp e he).1
    apply key?_filtered hkept
  rw [htable, Snapshot.filteredTable]
  apply congrArg (Table.renumbered _)
  exact congrArg (fun keys => ({ p.draft.content with foreignKeys := keys } : Table)) hforeignKeys

/-- The copy of a schema that is left is what is left of its copy. -/
theorem schema_filtered (hc : l.catalogs[i]? = some c) (hs : c.schemas[j]? = some s) (f : Filter) :
  (s.filtered f ⟨c.name, s.name⟩).schema (l.filtered f).key?
      (l.snapshot.filteredSchemaId f ⟨i, j⟩) ⟨c.name, s.name⟩
    = l.snapshot.filteredSchema f (s.schema l.key? ⟨i, j⟩ ⟨c.name, s.name⟩)
  := by
  have htables : ((s.filtered f ⟨c.name, s.name⟩).schema (l.filtered f).key?
      (l.snapshot.filteredSchemaId f ⟨i, j⟩) ⟨c.name, s.name⟩).tables
      = (((s.schema l.key? ⟨i, j⟩ ⟨c.name, s.name⟩).tables).filter fun t => f.keepsTable t.path).map
        (l.snapshot.filteredTable f) := by
    apply map_zipIdx_filter
    · exact fun _ => rfl
    · intro t k ht
      have htable := table_filtered hnames hresolves (mem_placed_of_getElem? hc hs ht) f
      rw [filteredTableId_snapshot hc hs] at htable
      apply htable
  rw [Snapshot.filteredSchema, ← htables]
  simp only [SchemaListing.schema, SchemaListing.draft, SchemaListing.filtered, List.map_map]
  rfl

/-- The copy of a catalog that is left is what is left of its copy. -/
theorem catalog_filtered (hc : l.catalogs[i]? = some c) (f : Filter) :
  (c.filtered f).catalog (l.filtered f).key? (l.snapshot.filteredCatalogId f ⟨i⟩)
    = l.snapshot.filteredCatalog f (c.catalog l.key? ⟨i⟩)
  := by
  have hschemas : ((c.filtered f).catalog (l.filtered f).key?
      (l.snapshot.filteredCatalogId f ⟨i⟩)).schemas
      = ((c.catalog l.key? ⟨i⟩).schemas.filter fun x => f.keepsSchema ⟨c.name, x.name⟩).map
        (l.snapshot.filteredSchema f) := by
    apply map_zipIdx_filter
    · exact fun _ => rfl
    · intro s j hs
      have hschema := schema_filtered hnames hresolves hc hs f
      rw [filteredSchemaId_snapshot hc] at hschema
      apply hschema
  apply congrArg (Catalog.mk _ _ _) hschemas

/-- The snapshot of what is left of a listing is what is left of its snapshot. -/
theorem snapshot_filtered (f : Filter) :
  (l.filtered f).snapshot = l.snapshot.filtered f
  := by
  apply congrArg Snapshot.mk
  apply map_zipIdx_filter
  · exact fun _ => rfl
  · intro c i hc
    have hcatalog := catalog_filtered hnames hresolves hc f
    rw [filteredCatalogId_snapshot] at hcatalog
    apply hcatalog

/-- A table that is kept has its new id in what is left. -/
theorem table?_filtered {p : PlacedTable} (hp : p ∈ l.placed) (hkept : f.keepsTable p.path) :
  (l.snapshot.filtered f).table? (l.snapshot.filteredTableId f p.id)
    = some (l.snapshot.filteredTable f (p.listing.table l.key? p.id p.path))
  := by
  have hplaced : p.filtered f (l.snapshot.filteredTableId f) ∈ (l.filtered f).placed := by
    rw [placed_filtered]
    apply List.mem_map_of_mem
    apply List.mem_filter.mpr ⟨hp, hkept⟩
  rw [← snapshot_filtered hnames hresolves, ← table_filtered hnames hresolves hp]
  apply table?_snapshot hplaced

/-- A foreign key that is kept refers to the table and the key that it referred to. -/
theorem target_filtered {fk : ForeignKey} (hfk : fk ∈ l.snapshot.foreignKeys)
    (hkept : l.snapshot.keepsForeignKey f fk) :
  ∃ T key, l.snapshot.referencedTable? fk = some T ∧ l.snapshot.referencedKey? fk = some key
    ∧ (l.snapshot.filtered f).referencedTable? (fk.renumbered (l.snapshot.filteredTableId f))
      = some (l.snapshot.filteredTable f T)
    ∧ (l.snapshot.filtered f).referencedKey? (fk.renumbered (l.snapshot.filteredTableId f))
      = some (key.renumbered (l.snapshot.filteredTableId f))
  := by
  obtain ⟨p, hp, hid, key, hkey⟩ := exists_referenced hnames hresolves hfk
  have htable : l.snapshot.table? fk.key.table = some (p.listing.table l.key? p.id p.path) := by
    rw [hid, table?_snapshot hp]
  have hpath : f.keepsTable p.path := by
    rw [Snapshot.keepsForeignKey, Snapshot.referencedTable?, htable, Option.any_some] at hkept
    exact hkept
  have htable' : (l.snapshot.filtered f).table? (l.snapshot.filteredTableId f fk.key.table)
      = some (l.snapshot.filteredTable f (p.listing.table l.key? p.id p.path)) := by
    rw [hid, table?_filtered hnames hresolves hp hpath]
  exact ⟨_, key, target_renumbered htable hkey htable' rfl⟩

end Listing

end

end

end DetachedSchema
