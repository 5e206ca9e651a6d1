import DetachedSchema.Proofs.Detach.Answers
import DetachedSchema.Proofs.Detach.ByPath
import DetachedSchema.Proofs.Snapshot.Navigation
import DetachedSchema.Proofs.Snapshot.Renumbering

/-!
# The listing of a snapshot

What a snapshot offers to those who read it, written out as a listing: its entries place by place,
with names for positions and for ids.  Nothing is asked of the snapshot.  Where it is not
consistent, positions without a column are left out, and so are foreign keys without a target.
Every column that the listing names exists, for each name was taken from a column of the same table.
-/

namespace DetachedSchema

/-- What the table offers; foreign keys without a target are left out. -/
def Table.listing (s : Snapshot) (t : Table) : TableListing where
  name := t.name
  comment := t.comment
  options := t.options
  columns := t.columns.map Column.entry
  indexes := t.indexes.map t.indexEntry
  uniqueKeys := t.uniqueKeys.map t.keyEntry
  primaryKey := t.primaryKey?.map t.keyEntry
  foreignKeys := t.foreignKeys.filterMap fun fk => (s.foreignKeyEntry t fk).toOption
  checks := t.checks

/-- What the schema offers. -/
def Schema.listing (s : Snapshot) (schema : Schema) : SchemaListing where
  name := schema.name
  comment := schema.comment
  domains := schema.domains.map Domain.entry
  tables := schema.tables.map (Table.listing s)
  sequences := schema.sequences.map Sequence.entry
  userTypes := schema.userTypes.map UserType.entry

/-- What the catalog offers. -/
def Catalog.listing (s : Snapshot) (c : Catalog) : CatalogListing where
  name := c.name
  comment := c.comment
  schemas := c.schemas.map (Schema.listing s)

/-- What the snapshot offers. -/
def Snapshot.listing (s : Snapshot) : Listing := ⟨s.catalogs.map (Catalog.listing s)⟩

/-- Siblings have names of their own. -/
structure Snapshot.DistinctNames (s : Snapshot) : Prop where
  catalogs : (s.catalogs.map Catalog.name).Nodup
  schemas : ∀ c ∈ s.catalogs, (c.schemas.map Schema.name).Nodup
  tables : ∀ c ∈ s.catalogs, ∀ schema ∈ c.schemas, (schema.tables.map Table.name).Nodup

theorem Snapshot.DistinctNames.listing {s : Snapshot} (h : s.DistinctNames) :
  s.listing.DistinctNames
  := by
  constructor
  case catalogs =>
    simp only [Snapshot.listing, List.map_map]
    exact h.catalogs
  case schemas =>
    simp only [Snapshot.listing, Catalog.listing, List.forall_mem_map, List.map_map]
    exact h.schemas
  case tables =>
    simp only [Snapshot.listing, Catalog.listing, Schema.listing, List.forall_mem_map, List.map_map]
    exact h.tables

/-! ### Foreign keys -/

namespace Snapshot

variable {s : Snapshot} {t : Table} {fk : ForeignKey}

theorem foreignKeyEntry_eq_ok {e : ForeignKeyEntry} :
  s.foreignKeyEntry t fk = .ok e
    ↔ ∃ T key, s.referencedTable? fk = some T ∧ s.referencedKey? fk = some key
      ∧ e = ⟨fk.name, t.columnNames fk.columns, fk.enforced,
        ⟨T.path, T.columnNames key.columns⟩⟩
  := by
  rw [foreignKeyEntry]
  cases s.referencedTable? fk with
  | none => simp
  | some T =>
    cases s.referencedKey? fk with
    | none => simp
    | some key => simp [eq_comm]

/-- Only a foreign key without a target has no entry. -/
theorem foreignKeyEntry_eq_error {fault : Fault} :
  s.foreignKeyEntry t fk = .error fault
    ↔ s.referencedKey? fk = none ∧ fault = .invalidSnapshot (.noTarget fk.name t.path)
  := by
  rw [foreignKeyEntry]
  cases htable : s.referencedTable? fk with
  | none =>
    have hkey : s.referencedKey? fk = none := by
      rw [referencedTable?] at htable
      rw [referencedKey?, key?, htable]
      rfl
    simp [hkey, eq_comm]
  | some T =>
    cases s.referencedKey? fk with
    | none => simp [eq_comm]
    | some key => simp

end Snapshot

/-! ### Columns that are named -/

namespace Table

variable {t : Table} {positions : List Nat} {name : String}

/-- A name is that of a column. -/
theorem exists_of_mem_columnNames (h : name ∈ t.columnNames positions) :
  ∃ c ∈ t.columns, c.name = name
  := by
  obtain ⟨c, hc, rfl⟩ := List.mem_map.mp h
  obtain ⟨p, -, hp⟩ := List.mem_filterMap.mp hc
  exact ⟨c, List.mem_of_getElem? hp, rfl⟩

theorem hasColumn_listing (s : Snapshot) (h : ∃ c ∈ t.columns, c.name = name) :
  (t.listing s).HasColumn name
  := by
  obtain ⟨c, hc, rfl⟩ := h
  exact ⟨c.entry, List.mem_map_of_mem hc, rfl⟩

/-- Whatever a table names it has. -/
theorem namesColumns_listing (s : Snapshot) (t : Table) :
  (t.listing s).NamesColumns
  := by
  constructor
  case indexes =>
    simp only [Table.listing, List.forall_mem_map]
    intro x _ e he
    obtain ⟨c, -, hc⟩ := List.mem_filterMap.mp he
    obtain ⟨column, hcolumn, rfl⟩ := Option.map_eq_some_iff.mp hc
    apply hasColumn_listing s ⟨column, List.mem_of_getElem? hcolumn, rfl⟩
  case uniqueKeys =>
    simp only [Table.listing, List.forall_mem_map]
    intro key _ name hname
    apply hasColumn_listing s (exists_of_mem_columnNames hname)
  case foreignKeys =>
    intro e he name hname
    obtain ⟨fk, -, hfk⟩ := List.mem_filterMap.mp he
    obtain ⟨T, key, -, -, rfl⟩ := Snapshot.foreignKeyEntry_eq_ok.mp (toOption_eq_some.mp hfk)
    apply hasColumn_listing s (exists_of_mem_columnNames hname)

end Table

theorem Snapshot.namesColumns_listing (s : Snapshot) :
  s.listing.NamesColumns
  := by
  simp only [Listing.NamesColumns, Snapshot.listing, Catalog.listing, Schema.listing,
    List.forall_mem_map]
  intro _ _ _ _ t _
  apply t.namesColumns_listing

/-! ### Answers -/

namespace Snapshot

variable {s : Snapshot}

/-- The answers of the snapshot where foreign keys without a target are left out. -/
def offered (s : Snapshot) : Answers
  | .foreignKeys p => do
    let t ← s.tableAt p
    return t.foreignKeys.filterMap fun fk => (s.foreignKeyEntry t fk).toOption
  | q => s.answer q

/-- The snapshot finds the catalog that its listing finds. -/
theorem catalogNamed_of_listing {name : String} {c : CatalogListing}
    (h : s.listing.catalogNamed name = .ok c) :
  ∃ C, s.catalogNamed name = .ok C ∧ C.listing s = c
  := by
  have hfind : s.listing.catalogs.find? (·.name = name)
      = (s.catalogNamed? name).map (Catalog.listing s) := List.find?_map
  rw [Listing.catalogNamed, hfind] at h
  rw [catalogNamed]
  cases hC : s.catalogNamed? name with
  | none =>
    rw [hC] at h
    cases h
  | some C =>
    rw [hC] at h
    exact ⟨C, rfl, Except.ok.inj h⟩

/-- The snapshot finds the schema that its listing finds. -/
theorem schemaAt_of_listing {p : SchemaPath} {x : SchemaListing}
    (h : s.listing.schemaAt p = .ok x) :
  ∃ schema, s.schemaAt p = .ok schema ∧ schema.listing s = x
  := by
  obtain ⟨c, hc, h⟩ := bind_eq_ok.mp h
  obtain ⟨C, hC, rfl⟩ := catalogNamed_of_listing hc
  have hfind : (C.listing s).schemas.find? (·.name = p.schema)
      = (C.schema? p.schema).map (Schema.listing s) := List.find?_map
  rw [hfind] at h
  simp only [schemaAt, hC, Bind.bind, Except.bind]
  cases hschema : C.schema? p.schema with
  | none =>
    rw [hschema] at h
    cases h
  | some schema =>
    rw [hschema] at h
    exact ⟨schema, rfl, Except.ok.inj h⟩

/-- The snapshot finds the table that its listing finds. -/
theorem tableAt_of_listing {p : TablePath} {x : TableListing} (h : s.listing.tableAt p = .ok x) :
  ∃ t, s.tableAt p = .ok t ∧ t.listing s = x
  := by
  obtain ⟨y, hy, hx⟩ := bind_eq_ok.mp h
  obtain ⟨schema, hschema, rfl⟩ := schemaAt_of_listing hy
  have hfind : (schema.listing s).tables.find? (·.name = p.table)
      = (schema.table? p.table).map (Table.listing s) := List.find?_map
  rw [hfind] at hx
  rw [tableAt, find?_eq, findSchema?_of_schemaAt hschema, Option.bind_some]
  cases ht : schema.table? p.table with
  | none =>
    rw [ht] at hx
    cases hx
  | some t =>
    rw [ht] at hx
    exact ⟨t, rfl, Except.ok.inj hx⟩

/-- What the listing answers is what is offered. -/
theorem offered_of_listing {q : Query} {x : q.Answer} (h : s.listing.answer q = .ok x) :
  s.offered q = .ok x
  := by
  cases q with
  | catalogs =>
    rw [Listing.answer, listing, List.map_map] at h
    exact h
  | schemas name =>
    obtain ⟨c, hc, hx⟩ := bind_eq_ok.mp h
    obtain ⟨C, hC, rfl⟩ := catalogNamed_of_listing hc
    simp only [offered, answer, hC, ← hx, Catalog.listing, List.map_map]
    rfl
  | domains p | tables p | sequences p | userTypes p =>
    obtain ⟨y, hy, hx⟩ := bind_eq_ok.mp h
    obtain ⟨schema, hschema, rfl⟩ := schemaAt_of_listing hy
    simp only [offered, answer, hschema, ← hx, Schema.listing, List.map_map]
    rfl
  | columns p | indexes p | uniqueKeys p | primaryKey p | foreignKeys p | checks p =>
    obtain ⟨y, hy, hx⟩ := bind_eq_ok.mp h
    obtain ⟨t, ht, rfl⟩ := tableAt_of_listing hy
    simp only [offered, answer, ht, ← hx]
    rfl

/-- What is offered is recorded in the listing, read by paths. -/
theorem records_listing (s : Snapshot) :
  s.listing.byPath.Records s.offered.given
  := by
  apply s.listing.records_byPath.mono
  intro q _ x
  apply offered_of_listing

/-- The question is for the foreign keys of a table, and the fault is that one of them has no
target. -/
inductive Dangling (s : Snapshot) : Query → Fault → Prop
  | foreignKey {path : TablePath} {t : Table} {fk : ForeignKey} (found : s.find? path = some t)
      (mem : fk ∈ t.foreignKeys) (stray : s.referencedKey? fk = none) :
    s.Dangling (.foreignKeys path) (.invalidSnapshot (.noTarget fk.name t.path))

/-- The snapshot answers what it offers, unless it is asked for a foreign key without a target. -/
theorem answer_eq_offered (s : Snapshot) (q : Query) :
  s.answer q = s.offered q ∨ ∃ fault, s.Dangling q fault ∧ s.answer q = .error fault
  := by
  cases q with
  | foreignKeys p =>
    rw [answer, offered, tableAt]
    cases ht : s.find? p with
    | none => exact .inl rfl
    | some t =>
      simp only [Bind.bind, Except.bind]
      cases hfks : t.foreignKeys.mapM (s.foreignKeyEntry t) with
      | ok entries =>
        left
        rw [filterMap_of_mapM_eq_ok hfks]
        rfl
      | error fault =>
        right
        obtain ⟨before, fk, after, hsplit, -, hfk⟩ := mapM_eq_error_iff.mp hfks
        obtain ⟨hstray, rfl⟩ := foreignKeyEntry_eq_error.mp hfk
        have hmem : fk ∈ t.foreignKeys := by simp [hsplit]
        exact ⟨_, .foreignKey ht hmem hstray, rfl⟩
  | _ => exact .inl rfl

end Snapshot

/-! ### Consistent snapshots -/

/-- When no two tables share a path, a reference to a table leads to the first key of that table
over the columns. -/
theorem Listing.key?_of_mem_placed {l : Listing} (hnames : l.NamesColumns)
    (hpaths : (l.placed.map PlacedTable.path).Nodup) {p : PlacedTable} (hp : p ∈ l.placed)
    (columns : List String) :
  l.key? ⟨p.path, columns⟩
    = (p.listing.uniqueKeys.findIdx? (·.columns = columns)).map (⟨p.id, ·⟩)
  := by
  have hown : l.placed.filter (·.path = p.path) = [p] := by
    have hsingle := filter_flatMap_of_nodup (f := fun x => [x]) hpaths
      (fun _ _ y hy => congrArg PlacedTable.path (List.mem_singleton.mp hy)) hp
    rwa [List.flatMap_singleton'] at hsingle
  have hkeys : KeyIndex.keysOf p.draft.content
      = p.listing.uniqueKeys.zipIdx.map fun x => ⟨x.1.columns, ⟨p.id, x.2⟩⟩ := by
    simp only [KeyIndex.keysOf, PlacedTable.draft, TableListing.draft, List.map_map]
    apply List.map_congr_left
    rintro ⟨e, i⟩ he
    have hcolumns := (forall_placed hnames p hp).uniqueKeys e (List.fst_mem_of_mem_zipIdx he)
    have hnamed := TableListing.columnNames_map_place (T := p.draft.content) rfl hcolumns
    exact congrArg (IndexedKey.mk · ⟨p.id, i⟩) hnamed
  have htables : (Snapshot.tables ⟨l.draft.content⟩).filter (·.path = p.path)
      = [p.draft.content] := by
    rw [tables_draft, List.filter_map]
    exact congrArg (List.map fun p => p.draft.content) hown
  have hpath : p.draft.content.path = p.path := rfl
  rw [key?, ← firstKey?_filter_path, htables, firstKey?_cons, firstKey?_nil, Option.or_none,
    if_pos hpath, hkeys, List.find?_map, List.findIdx?_eq_fst_find?_zipIdx, Option.map_map,
    Option.map_map]
  rfl

/-- What the table offers, in its place. -/
def Table.placed (s : Snapshot) (t : Table) : PlacedTable := ⟨t.id, t.path, t.listing s⟩

namespace Snapshot.Consistent

variable {s : Snapshot} (h : s.Consistent)

include h

/-- The tables of the listing are those of the snapshot, in their places. -/
theorem mem_placed_listing {p : PlacedTable} :
  p ∈ s.listing.placed ↔ ∃ t ∈ s.tables, p = t.placed s
  := by
  constructor
  · intro hp
    obtain ⟨c, i, x, j, y, k, hc, hx, hy, rfl⟩ := Listing.exists_of_mem_placed hp
    rw [listing, List.getElem?_map] at hc
    obtain ⟨C, hC, rfl⟩ := Option.map_eq_some_iff.mp hc
    rw [Catalog.listing, List.getElem?_map] at hx
    obtain ⟨S, hS, rfl⟩ := Option.map_eq_some_iff.mp hx
    rw [Schema.listing, List.getElem?_map] at hy
    obtain ⟨t, ht, rfl⟩ := Option.map_eq_some_iff.mp hy
    obtain ⟨hid, hpath, -⟩ := h.of_getElem? hC hS ht
    use t, mem_tables.mpr ⟨⟨i, j, k⟩, table?_eq_some.mpr ⟨C, S, hC, hS, ht⟩⟩
    rw [Table.placed, hid, hpath]
    rfl
  · rintro ⟨t, ht, rfl⟩
    obtain ⟨id, hid⟩ := mem_tables.mp ht
    obtain ⟨C, S, hC, hS, ht⟩ := table?_eq_some.mp hid
    obtain ⟨hid, hpath, -⟩ := h.of_getElem? hC hS ht
    have hcatalog : s.listing.catalogs[id.catalog]? = some (C.listing s) := by
      rw [listing, List.getElem?_map, hC, Option.map_some]
    have hschema : (C.listing s).schemas[id.schema]? = some (S.listing s) := by
      rw [Catalog.listing, List.getElem?_map, hS, Option.map_some]
    have htable : (S.listing s).tables[id.table]? = some (t.listing s) := by
      rw [Schema.listing, List.getElem?_map, ht, Option.map_some]
    rw [Table.placed, hid, hpath]
    exact Listing.mem_placed_of_getElem? hcatalog hschema htable

/-- A consistent snapshot answers what it offers. -/
theorem offered_eq :
  s.offered = s.answer
  := by
  funext q
  obtain heq | ⟨fault, hdangling, -⟩ := s.answer_eq_offered q
  · exact heq.symm
  · obtain ⟨ht, hfk, hstray⟩ := hdangling
    obtain ⟨-, htable⟩ := h.of_mem_tables (mem_tables_of_find? ht)
    obtain ⟨key, hkey, -⟩ := (htable.foreignKeys _ hfk).target
    rw [hstray] at hkey
    cases hkey

variable (hdistinct : s.DistinctNames)

include hdistinct

/-- A reference to a table leads to the first key of that table over the columns. -/
theorem key?_listing {t : Table} (ht : t ∈ s.tables) (columns : List String) :
  s.listing.key? ⟨t.path, columns⟩
    = (t.uniqueKeys.findIdx? fun key => t.columnNames key.columns = columns).map (⟨t.id, ·⟩)
  := by
  have hp : t.placed s ∈ s.listing.placed := h.mem_placed_listing.mpr ⟨t, ht, rfl⟩
  have hpaths := Listing.nodup_paths hdistinct.listing
  apply (Listing.key?_of_mem_placed s.namesColumns_listing hpaths hp columns).trans
  apply congrArg
  apply List.findIdx?_map

/-- Every foreign key of the listing has a target. -/
theorem resolves_listing :
  s.listing.Resolves
  := by
  apply Listing.resolves_iff_forall_placed.mpr
  intro p hp e he
  obtain ⟨t, ht, rfl⟩ := h.mem_placed_listing.mp hp
  obtain ⟨fk, hfk, hentry⟩ := List.mem_filterMap.mp he
  obtain ⟨T, key, hT, hkey, rfl⟩ := foreignKeyEntry_eq_ok.mp (toOption_eq_some.mp hentry)
  obtain ⟨hcolumns, T', key', ⟨hT', hkey'⟩, -, -, hmem⟩ := (h.navigable ht).foreignKeys fk hfk
  obtain rfl := Option.some.inj (hT.symm.trans hT')
  obtain rfl := Option.some.inj (hkey.symm.trans hkey')
  have hTmem : T ∈ s.tables := mem_tables.mpr ⟨_, hT⟩
  constructor
  · rw [h.key?_listing hdistinct hTmem, Option.isSome_map, List.findIdx?_isSome, List.any_eq_true]
    exact ⟨key, hmem, decide_eq_true rfl⟩
  · obtain ⟨-, hkeyColumns⟩ := (h.navigable hTmem).uniqueKeys key hmem
    obtain ⟨key', hkey', hlength⟩ := ((h.of_mem_tables ht).2.foreignKeys fk hfk).target
    obtain rfl := Option.some.inj (hkey.symm.trans hkey')
    rw [hcolumns.length_eq, hkeyColumns.length_eq, hlength]

end Snapshot.Consistent

end DetachedSchema
