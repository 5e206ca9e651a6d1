import DetachedSchema.Proofs.Listing.Draft
import DetachedSchema.Proofs.Traversal

/-!
# What a walk copies

A listing records possible answers when it has at every node what the source may answer there.  A
walk can end with a draft exactly when it is the draft of such a listing and every column that is
named exists.
-/

namespace DetachedSchema

/-! ### Listings that record answers -/

/-- What the table has is what may be answered about its path. -/
structure TableListing.Records (A : Possible) (path : TablePath) (t : TableListing) : Prop where
  columns : A (.columns path) t.columns
  indexes : A (.indexes path) t.indexes
  uniqueKeys : A (.uniqueKeys path) t.uniqueKeys
  primaryKey : A (.primaryKey path) t.primaryKey
  foreignKeys : A (.foreignKeys path) t.foreignKeys
  checks : A (.checks path) t.checks

/-- What the schema and its tables have is what may be answered about their paths. -/
structure SchemaListing.Records (A : Possible) (path : SchemaPath) (s : SchemaListing) : Prop where
  domains : A (.domains path) s.domains
  tables : A (.tables path) (s.tables.map TableListing.entry)
  below : ∀ t ∈ s.tables, t.Records A (path.table t.name)
  sequences : A (.sequences path) s.sequences
  userTypes : A (.userTypes path) s.userTypes

/-- What the catalog and its schemas have is what may be answered about their names. -/
structure CatalogListing.Records (A : Possible) (c : CatalogListing) : Prop where
  schemas : A (.schemas c.name) (c.schemas.map SchemaListing.entry)
  below : ∀ s ∈ c.schemas, s.Records A ⟨c.name, s.name⟩

/-- Everything in the listing is what may be answered. -/
structure Listing.Records (A : Possible) (l : Listing) : Prop where
  catalogs : A .catalogs (l.catalogs.map CatalogListing.entry)
  below : ∀ c ∈ l.catalogs, c.Records A

namespace Walk

/-! ### Columns by their names -/

theorem findIdx?_copyColumns (id : TableId) (t : TableListing) (name : String) :
  (copyColumns id t.columns).findIdx? (·.name = name) = t.columns.findIdx? (·.name = name)
  := by
  rw [copyColumns, List.findIdx?_map]
  exact findIdx?_zipIdx (p := fun e : ColumnEntry => e.name = name)

/-- A position is found for the name of a column, and it is the first. -/
theorem position_eq_ok {id : TableId} {t : TableListing} {path : TablePath} {owner name : String}
    {i : Nat} :
  position path (copyColumns id t.columns) owner name = .ok i
    ↔ t.HasColumn name ∧ i = t.place name
  := by
  rw [position, findIdx?_copyColumns, TableListing.place]
  cases hi : t.columns.findIdx? (·.name = name) with
  | some j =>
    obtain ⟨hj, rfl⟩ := List.findIdx?_eq_some_iff_findIdx_eq.mp hi
    have hc : t.HasColumn name := by
      simpa [TableListing.HasColumn] using List.findIdx_lt_length.mp hj
    simp [hc, eq_comm]
  | none =>
    have hc : ¬ t.HasColumn name := by
      simpa [TableListing.HasColumn] using List.findIdx?_eq_none_iff.mp hi
    simp [hc]

/-- Positions are found for the names of columns, each being the first of its name. -/
theorem mapM_position_eq_ok {id : TableId} {t : TableListing} {path : TablePath} {owner : String}
    {names : List String} {positions : List Nat} :
  names.mapM (position path (copyColumns id t.columns) owner) = .ok positions
    ↔ (∀ name ∈ names, t.HasColumn name) ∧ positions = names.map t.place
  := mapM_eq_ok_iff fun _ _ => position_eq_ok

section

variable {T : Table} {t : TableListing} (hT : T.columns = copyColumns T.id t.columns)

include hT

/-- An index is copied when the table has the columns that it names. -/
theorem copyIndex_eq_ok {e : IndexEntry} {x : Index} :
  copyIndex T e = .ok x ↔ (∀ c ∈ e.columns, t.HasColumn c.name) ∧ x = t.copyIndex T.id e
  := by
  have hc : ∀ (c : SortedColumnEntry) (y : IndexColumn),
      (do return ⟨← position T.path T.columns s!"Index {e.name}" c.name, c.order⟩) = Except.ok y
        ↔ t.HasColumn c.name ∧ y = ⟨t.place c.name, c.order⟩ := by
    intro c y
    simp only [hT, bind_eq_ok, position_eq_ok]
    constructor
    · rintro ⟨i, ⟨hi, rfl⟩, hy⟩
      exact ⟨hi, (Except.ok.inj hy).symm⟩
    · rintro ⟨hi, rfl⟩
      exact ⟨_, ⟨hi, rfl⟩, rfl⟩
  rw [copyIndex, bind_eq_ok]
  constructor
  · rintro ⟨columns, hcolumns, hx⟩
    obtain ⟨hnames, rfl⟩ := (mapM_eq_ok_iff hc).mp hcolumns
    exact ⟨hnames, (Except.ok.inj hx).symm⟩
  · rintro ⟨hnames, rfl⟩
    exact ⟨_, (mapM_eq_ok_iff hc).mpr ⟨hnames, rfl⟩, rfl⟩

/-- A unique key is copied when the table has the columns that it names. -/
theorem copyKey_eq_ok {e : KeyEntry} {i : Nat} {key : UniqueKey} :
  copyKey T i e = .ok key ↔ (∀ name ∈ e.columns, t.HasColumn name) ∧ key = t.copyKey T.id (e, i)
  := by
  rw [copyKey, hT, bind_eq_ok]
  constructor
  · rintro ⟨columns, hcolumns, hkey⟩
    obtain ⟨hnames, rfl⟩ := mapM_position_eq_ok.mp hcolumns
    exact ⟨hnames, (Except.ok.inj hkey).symm⟩
  · rintro ⟨hnames, rfl⟩
    exact ⟨_, mapM_position_eq_ok.mpr ⟨hnames, rfl⟩, rfl⟩

/-- A foreign key is copied when the table has the columns that it names, whatever it refers to. -/
theorem copyForeignKey_eq_ok {e : ForeignKeyEntry} {k : PendingKey} :
  copyForeignKey T e = .ok k
    ↔ (∀ name ∈ e.columns, t.HasColumn name) ∧ k = t.copyForeignKey T.id T.path e
  := by
  rw [copyForeignKey, hT, bind_eq_ok]
  constructor
  · rintro ⟨columns, hcolumns, hk⟩
    obtain ⟨hnames, rfl⟩ := mapM_position_eq_ok.mp hcolumns
    exact ⟨hnames, (Except.ok.inj hk).symm⟩
  · rintro ⟨hnames, rfl⟩
    exact ⟨_, mapM_position_eq_ok.mpr ⟨hnames, rfl⟩, rfl⟩

variable (hnames : t.NamesColumns)

include hnames

theorem mapM_copyIndex :
  t.indexes.mapM (copyIndex T) = .ok (t.indexes.map (t.copyIndex T.id))
  := (mapM_eq_ok_iff fun _ _ => copyIndex_eq_ok hT).mpr ⟨hnames.indexes, rfl⟩

theorem mapM_copyKey :
  (t.uniqueKeys.zipIdx.mapM fun x => copyKey T x.2 x.1)
    = .ok (t.uniqueKeys.zipIdx.map (t.copyKey T.id))
  := (mapM_eq_ok_iff fun _ _ => copyKey_eq_ok hT).mpr
    ⟨forall_mem_zipIdx.mpr hnames.uniqueKeys, rfl⟩

theorem mapM_copyForeignKey :
  t.foreignKeys.mapM (copyForeignKey T) = .ok (t.foreignKeys.map (t.copyForeignKey T.id T.path))
  := (mapM_eq_ok_iff fun _ _ => copyForeignKey_eq_ok hT).mpr ⟨hnames.foreignKeys, rfl⟩

end

/-! ### Nodes -/

/-- Telling about the primary key never keeps a walk from going on. -/
@[simp]
theorem canEnd_tellStrayKey {A : Possible} {path : TablePath} {primary : Option KeyEntry}
    {place : Option Nat} {u : Unit} :
  (tellStrayKey path primary place).CanEnd A u
  := by
  cases primary with
  | none => rfl
  | some primary => cases place <;> rfl

/-- A table can be copied to the drafts of the listings that record it and name its columns. -/
theorem canEnd_copyTable {A : Possible} {id : TableId} {path : TablePath} {e : TableEntry}
    {d : Draft Table} :
  (copyTable id path e).CanEnd A d
    ↔ ∃ t : TableListing, t.entry = e ∧ (t.Records A path ∧ t.NamesColumns) ∧ d = t.draft id path
  := by
  simp only [copyTable, Script.query, Script.bind_eq, Script.pure_eq_done, Script.bind,
    Script.canEnd_bind, Script.canEnd_ask, Script.canEnd_log, Script.canEnd_ofExcept,
    Script.canEnd_forM_log, canEnd_tellStrayKey, Script.canEnd_done, exists_const, true_and]
  constructor
  · rintro ⟨columns, hcolumns, indexes, hindexes, xs, hxs, keys, hkeys, ks, hks, primary, hprimary,
      foreignKeys, hforeignKeys, pending, hpending, checks, hchecks, rfl⟩
    let t : TableListing :=
      ⟨e.name, e.comment, e.options, columns, indexes, keys, primary, foreignKeys, checks⟩
    obtain ⟨hindexColumns, rfl⟩ := (mapM_eq_ok_iff fun _ _ => copyIndex_eq_ok (t := t) rfl).mp hxs
    obtain ⟨hkeyColumns, rfl⟩ := (mapM_eq_ok_iff fun _ _ => copyKey_eq_ok (t := t) rfl).mp hks
    obtain ⟨hforeignColumns, rfl⟩ :=
      (mapM_eq_ok_iff fun _ _ => copyForeignKey_eq_ok (t := t) rfl).mp hpending
    use t, rfl
    constructor
    · constructor
      · exact ⟨hcolumns, hindexes, hkeys, hprimary, hforeignKeys, hchecks⟩
      · exact ⟨hindexColumns, forall_mem_zipIdx.mp hkeyColumns, hforeignColumns⟩
    · rfl
  · rintro ⟨t, rfl, ⟨hA, hnames⟩, rfl⟩
    use t.columns, hA.columns, t.indexes, hA.indexes
    use t.indexes.map (t.copyIndex id), mapM_copyIndex rfl hnames
    use t.uniqueKeys, hA.uniqueKeys
    use t.uniqueKeys.zipIdx.map (t.copyKey id), mapM_copyKey rfl hnames
    use t.primaryKey, hA.primaryKey, t.foreignKeys, hA.foreignKeys
    use t.foreignKeys.map (t.copyForeignKey id path), mapM_copyForeignKey rfl hnames
    use t.checks, hA.checks
    rfl

theorem canEnd_copyTables {A : Possible} {id : SchemaId} {path : SchemaPath} {l : List TableEntry}
    {ds : List (Draft Table)} :
  (l.zipIdx.mapM fun x => copyTable (id.table x.2) (path.table x.1.name) x.1).CanEnd A ds
    ↔ ∃ ts : List TableListing, ts.map TableListing.entry = l
      ∧ (∀ t ∈ ts, t.Records A (path.table t.name) ∧ t.NamesColumns)
      ∧ ds = ts.zipIdx.map fun x => x.1.draft (id.table x.2) (path.table x.1.name)
  := by
  apply Script.canEnd_mapM_zipIdx
  intro e i d
  apply canEnd_copyTable.trans
  apply exists_congr
  rintro t
  apply and_congr_right
  rintro rfl
  rfl

/-- A schema can be copied to the drafts of the listings that record it and name columns of its
tables. -/
theorem canEnd_copySchema {A : Possible} {id : SchemaId} {path : SchemaPath} {e : SchemaEntry}
    {d : Draft Schema} :
  (copySchema id path e).CanEnd A d
    ↔ ∃ s : SchemaListing, s.entry = e
      ∧ (s.Records A path ∧ ∀ t ∈ s.tables, t.NamesColumns) ∧ d = s.draft id path
  := by
  simp only [copySchema, Script.query, Script.bind_eq, Script.pure_eq_done, Script.bind,
    Script.canEnd_bind, Script.canEnd_ask, Script.canEnd_log, Script.canEnd_done, canEnd_copyTables,
    exists_const, true_and]
  constructor
  · rintro ⟨domains, hdomains, entries, hentries, _, ⟨ts, rfl, hts, rfl⟩, sequences, hsequences,
      userTypes, huserTypes, rfl⟩
    let s : SchemaListing := ⟨e.name, e.comment, domains, ts, sequences, userTypes⟩
    use s, rfl
    constructor
    · constructor
      · exact ⟨hdomains, hentries, fun t ht => (hts t ht).1, hsequences, huserTypes⟩
      · exact fun t ht => (hts t ht).2
    · rfl
  · rintro ⟨s, rfl, ⟨hA, hnames⟩, rfl⟩
    use s.domains, hA.domains, s.tables.map TableListing.entry, hA.tables
    refine ⟨_, ⟨s.tables, rfl, fun t ht => ⟨hA.below t ht, hnames t ht⟩, rfl⟩, ?_⟩
    use s.sequences, hA.sequences, s.userTypes, hA.userTypes
    rfl

theorem canEnd_copySchemas {A : Possible} {id : CatalogId} {catalog : String}
    {l : List SchemaEntry} {ds : List (Draft Schema)} :
  (l.zipIdx.mapM fun x => copySchema (id.schema x.2) ⟨catalog, x.1.name⟩ x.1).CanEnd A ds
    ↔ ∃ ss : List SchemaListing, ss.map SchemaListing.entry = l
      ∧ (∀ s ∈ ss, s.Records A ⟨catalog, s.name⟩ ∧ ∀ t ∈ s.tables, t.NamesColumns)
      ∧ ds = ss.zipIdx.map fun x => x.1.draft (id.schema x.2) ⟨catalog, x.1.name⟩
  := by
  apply Script.canEnd_mapM_zipIdx
  intro e i d
  apply canEnd_copySchema.trans
  apply exists_congr
  rintro s
  apply and_congr_right
  rintro rfl
  rfl

/-- A catalog can be copied to the drafts of the listings that record it and name columns of its
tables. -/
theorem canEnd_copyCatalog {A : Possible} {id : CatalogId} {e : CatalogEntry} {d : Draft Catalog} :
  (copyCatalog id e).CanEnd A d
    ↔ ∃ c : CatalogListing, c.entry = e
      ∧ (c.Records A ∧ ∀ s ∈ c.schemas, ∀ t ∈ s.tables, t.NamesColumns) ∧ d = c.draft id
  := by
  simp only [copyCatalog, Script.query, Script.bind_eq, Script.pure_eq_done, Script.bind,
    Script.canEnd_bind, Script.canEnd_ask, Script.canEnd_done, canEnd_copySchemas]
  constructor
  · rintro ⟨entries, hentries, _, ⟨ss, rfl, hss, rfl⟩, rfl⟩
    use ⟨e.name, e.comment, ss⟩, rfl
    constructor
    · constructor
      · exact ⟨hentries, fun s hs => (hss s hs).1⟩
      · exact fun s hs => (hss s hs).2
    · rfl
  · rintro ⟨c, rfl, ⟨hA, hnames⟩, rfl⟩
    use c.schemas.map SchemaListing.entry, hA.schemas
    exact ⟨_, ⟨c.schemas, rfl, fun s hs => ⟨hA.below s hs, hnames s hs⟩, rfl⟩, rfl⟩

/-- A walk can end with a draft when it is the draft of a listing that records possible answers and
in which every column that is named exists. -/
theorem canEnd_copyAll {A : Possible} {d : Draft (List Catalog)} :
  copyAll.CanEnd A d ↔ ∃ l : Listing, l.Records A ∧ l.NamesColumns ∧ d = l.draft
  := by
  have hcatalogs : ∀ (entries : List CatalogEntry) (ds : List (Draft Catalog)),
      (entries.zipIdx.mapM fun x => copyCatalog ⟨x.2⟩ x.1).CanEnd A ds
        ↔ ∃ cs : List CatalogListing, cs.map CatalogListing.entry = entries
          ∧ (∀ c ∈ cs, c.Records A ∧ ∀ s ∈ c.schemas, ∀ t ∈ s.tables, t.NamesColumns)
          ∧ ds = cs.zipIdx.map fun x => x.1.draft ⟨x.2⟩ :=
    fun _ _ => Script.canEnd_mapM_zipIdx fun _ _ _ => canEnd_copyCatalog
  simp only [copyAll, Script.query, Script.bind_eq, Script.pure_eq_done, Script.bind,
    Script.canEnd_bind, Script.canEnd_ask, Script.canEnd_done, hcatalogs]
  constructor
  · rintro ⟨entries, hentries, _, ⟨cs, rfl, hcs, rfl⟩, rfl⟩
    use ⟨cs⟩, ⟨hentries, fun c hc => (hcs c hc).1⟩, fun c hc => (hcs c hc).2
    rfl
  · rintro ⟨l, hA, hnames, rfl⟩
    use l.catalogs.map CatalogListing.entry, hA.catalogs
    exact ⟨_, ⟨l.catalogs, rfl, fun c hc => ⟨hA.below c hc, hnames c hc⟩, rfl⟩, rfl⟩

/-! ### Answers that are given -/

section

variable {a : Answers}

theorem outcome_tellStrayKey {path : TablePath} {primary : Option KeyEntry} {place : Option Nat} :
  (tellStrayKey path primary place).outcome a = .ok ()
  := Script.canEnd_given.mp canEnd_tellStrayKey

/-- A table that a listing records is copied to its draft. -/
theorem outcome_copyTable {t : TableListing} {id : TableId} {path : TablePath}
    (h : t.Records a.given path ∧ t.NamesColumns) :
  (copyTable id path t.entry).outcome a = .ok (t.draft id path)
  := Script.canEnd_given.mp (canEnd_copyTable.mpr ⟨t, rfl, h, rfl⟩)

theorem outcome_copyTables {ts : List TableListing} {id : SchemaId} {path : SchemaPath}
    (h : ∀ t ∈ ts, t.Records a.given (path.table t.name) ∧ t.NamesColumns) :
  ((ts.map TableListing.entry).zipIdx.mapM fun x =>
      copyTable (id.table x.2) (path.table x.1.name) x.1).outcome a
    = .ok (ts.zipIdx.map fun x => x.1.draft (id.table x.2) (path.table x.1.name))
  := Script.canEnd_given.mp (canEnd_copyTables.mpr ⟨ts, rfl, h, rfl⟩)

/-- A schema that a listing records is copied to its draft. -/
theorem outcome_copySchema {s : SchemaListing} {id : SchemaId} {path : SchemaPath}
    (h : s.Records a.given path ∧ ∀ t ∈ s.tables, t.NamesColumns) :
  (copySchema id path s.entry).outcome a = .ok (s.draft id path)
  := Script.canEnd_given.mp (canEnd_copySchema.mpr ⟨s, rfl, h, rfl⟩)

theorem outcome_copySchemas {ss : List SchemaListing} {id : CatalogId} {catalog : String}
    (h : ∀ s ∈ ss, s.Records a.given ⟨catalog, s.name⟩ ∧ ∀ t ∈ s.tables, t.NamesColumns) :
  ((ss.map SchemaListing.entry).zipIdx.mapM fun x =>
      copySchema (id.schema x.2) ⟨catalog, x.1.name⟩ x.1).outcome a
    = .ok (ss.zipIdx.map fun x => x.1.draft (id.schema x.2) ⟨catalog, x.1.name⟩)
  := Script.canEnd_given.mp (canEnd_copySchemas.mpr ⟨ss, rfl, h, rfl⟩)

/-- A catalog that a listing records is copied to its draft. -/
theorem outcome_copyCatalog {c : CatalogListing} {id : CatalogId}
    (h : c.Records a.given ∧ ∀ s ∈ c.schemas, ∀ t ∈ s.tables, t.NamesColumns) :
  (copyCatalog id c.entry).outcome a = .ok (c.draft id)
  := Script.canEnd_given.mp (canEnd_copyCatalog.mpr ⟨c, rfl, h, rfl⟩)

/-- When a listing records the answers that are given, a walk ends with its draft. -/
theorem outcome_copyAll {l : Listing} (h : l.Records a.given) (hnames : l.NamesColumns) :
  copyAll.outcome a = .ok l.draft
  := Script.canEnd_given.mp (canEnd_copyAll.mpr ⟨l, h, hnames, rfl⟩)

end

end Walk

end DetachedSchema
