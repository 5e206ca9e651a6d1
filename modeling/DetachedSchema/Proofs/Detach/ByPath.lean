import DetachedSchema.Listing.Source
import DetachedSchema.Proofs.Detach.Recorded
import DetachedSchema.Proofs.Detach.Resolve
import DetachedSchema.Proofs.Listing.Entries

/-!
# Detaching a listing

A source is asked about paths, and a listing answers with the first entry of a path.  What is
detached from a listing is therefore the listing as it is read by paths: each entry stands in its
place under its own name, comment and options, and owns what the first entry with its path owns.
Where siblings have names of their own, that is the listing itself.
-/

namespace DetachedSchema

/-! ### What a snapshot carries -/

/-- The table has everything that is written about it but its foreign keys. -/
structure Table.Carries (T : Table) (t : TableListing) : Prop where
  /-- The name, the comment and the options. -/
  entry : T.entry = t.entry
  columns : T.columns.map Column.entry = t.columns
  indexes : T.indexes.map T.indexEntry = t.indexes
  uniqueKeys : T.uniqueKeys.map T.keyEntry = t.uniqueKeys
  checks : T.checks = t.checks

/-- The schema has everything that is written about it, place by place, and no sequence is live. -/
structure Schema.Carries (S : Schema) (s : SchemaListing) : Prop where
  entry : S.entry = s.entry
  domains : S.domains.map Domain.entry = s.domains
  tables : List.Forall₂ Table.Carries S.tables s.tables
  sequences : S.sequences.map Sequence.entry = s.sequences.map fun e => { e with live := false }
  userTypes : S.userTypes.map UserType.entry = s.userTypes

/-- The catalog has everything that is written about it, place by place. -/
structure Catalog.Carries (C : Catalog) (c : CatalogListing) : Prop where
  entry : C.entry = c.entry
  schemas : List.Forall₂ Schema.Carries C.schemas c.schemas

/-- The snapshot has everything that a listing has, place by place. -/
def Snapshot.Carries (s : Snapshot) (l : Listing) : Prop :=
  List.Forall₂ Catalog.Carries s.catalogs l.catalogs

/-! ### What the snapshot of a listing carries -/

section

variable {find : KeyReference → Option KeyId}

theorem TableListing.carries {t : TableListing} (h : t.NamesColumns) (id : TableId)
    (path : SchemaPath) :
  (t.table find id (path.table t.name)).Carries t
  := by
  constructor
  case entry => rfl
  case columns => apply entries_columns
  case indexes => apply entries_indexes id _ h
  case uniqueKeys => apply entries_uniqueKeys id _ h
  case checks => rfl

theorem SchemaListing.carries {s : SchemaListing} (h : ∀ t ∈ s.tables, t.NamesColumns)
    (id : SchemaId) (path : SchemaPath) :
  (s.schema find id path).Carries s
  := by
  constructor
  case entry => rfl
  case domains => apply entries_domains
  case tables =>
    apply forall₂_map_zipIdx
    intro t ht i
    apply TableListing.carries (h t ht)
  case sequences => apply entries_sequences
  case userTypes => apply entries_userTypes

theorem CatalogListing.carries {c : CatalogListing}
    (h : ∀ s ∈ c.schemas, ∀ t ∈ s.tables, t.NamesColumns) (id : CatalogId) :
  (c.catalog find id).Carries c
  := by
  constructor
  case entry => rfl
  case schemas =>
    apply forall₂_map_zipIdx
    intro s hs i
    apply SchemaListing.carries (h s hs)

/-- The snapshot of a listing has everything that the listing has. -/
theorem Listing.snapshot_carries {l : Listing} (h : l.NamesColumns) :
  l.snapshot.Carries l
  := by
  apply forall₂_map_zipIdx
  intro c hc i
  apply CatalogListing.carries (h c hc)

end

/-! ### Listings that are read by paths -/

section

variable {α : Type} (name : α → String)

/-- The first member of a list that has the name of `x`; where there is none, `x` itself. -/
def firstNamed (l : List α) (x : α) : α := (l.find? fun y => name y = name x).getD x

variable {name} {l : List α} {x : α}

theorem find?_eq_firstNamed (hx : x ∈ l) :
  l.find? (fun y => name y = name x) = some (firstNamed name l x)
  := by
  have hsome : (l.find? fun y => name y = name x).isSome := by
    rw [List.find?_isSome]
    exact ⟨x, hx, decide_eq_true rfl⟩
  obtain ⟨y, hy⟩ := Option.isSome_iff_exists.mp hsome
  rw [firstNamed, hy, Option.getD_some]

theorem firstNamed_mem (hx : x ∈ l) :
  firstNamed name l x ∈ l
  := List.mem_of_find?_eq_some (find?_eq_firstNamed hx)

theorem name_firstNamed (hx : x ∈ l) :
  name (firstNamed name l x) = name x
  := by
  have hfirst : l.find? (fun y => name y = name x) = some (firstNamed name l x) :=
    find?_eq_firstNamed hx
  have hname := List.find?_some hfirst
  apply of_decide_eq_true hname

/-- When no other member has its name, a member is the first one with its name. -/
theorem firstNamed_of_nodup (hnodup : (l.map name).Nodup) (hx : x ∈ l) :
  firstNamed name l x = x
  := List.inj_on_of_nodup_map hnodup (firstNamed_mem hx) hx (name_firstNamed hx)

/-- A list is unchanged when members of one name can be put in each other's place. -/
theorem map_firstNamed_eq {f : α → α → α}
    (hf : ∀ x ∈ l, ∀ y ∈ l, name y = name x → f y x = x) :
  (l.map fun x => f (firstNamed name l x) x) = l
  := map_eq_self_iff.mpr fun x hx => hf x hx _ (firstNamed_mem hx) (name_firstNamed hx)

/-- A list of members with names of their own is unchanged when every member is put in its own
place. -/
theorem map_firstNamed_of_nodup (hnodup : (l.map name).Nodup) {f : α → α → α}
    (hf : ∀ x ∈ l, f x x = x) :
  (l.map fun x => f (firstNamed name l x) x) = l
  := by
  apply map_firstNamed_eq
  intro x hx y hy hname
  rw [List.inj_on_of_nodup_map hnodup hy hx hname, hf x hx]

end

/-- What the table owns, under another entry. -/
def TableListing.under (t : TableListing) (e : TableEntry) : TableListing :=
  { t with name := e.name, comment := e.comment, options := e.options }

/-- What the schema owns, under another entry. -/
def SchemaListing.under (s : SchemaListing) (e : SchemaEntry) : SchemaListing :=
  { s with name := e.name, comment := e.comment }

/-- What the catalog owns, under another entry. -/
def CatalogListing.under (c : CatalogListing) (e : CatalogEntry) : CatalogListing :=
  { c with name := e.name, comment := e.comment }

/-- The schema with every table as it is read by its name. -/
def SchemaListing.byPath (s : SchemaListing) : SchemaListing :=
  { s with tables := s.tables.map fun t => (firstNamed TableListing.name s.tables t).under t.entry }

/-- The catalog with every schema as it is read by its name. -/
def CatalogListing.byPath (c : CatalogListing) : CatalogListing :=
  { c with
    schemas := c.schemas.map fun s =>
      (firstNamed SchemaListing.name c.schemas s).byPath.under s.entry }

/-- The listing as it is read by paths: an entry keeps its name, its comment and its options, and
owns what the first entry with its path owns. -/
def Listing.byPath (l : Listing) : Listing where
  catalogs := l.catalogs.map fun c =>
    (firstNamed CatalogListing.name l.catalogs c).byPath.under c.entry

/-- A table names its own columns, under whatever entry it stands. -/
theorem Listing.NamesColumns.byPath {l : Listing} (h : l.NamesColumns) :
  l.byPath.NamesColumns
  := by
  simp only [NamesColumns, Listing.byPath, CatalogListing.byPath, SchemaListing.byPath,
    CatalogListing.under, SchemaListing.under, List.forall_mem_map]
  intro c hc s hs t ht
  obtain ⟨hindexes, huniqueKeys, hforeignKeys⟩ :=
    h _ (firstNamed_mem hc) _ (firstNamed_mem hs) _ (firstNamed_mem ht)
  exact ⟨hindexes, huniqueKeys, hforeignKeys⟩

theorem SchemaListing.byPath_eq {s : SchemaListing} (h : (s.tables.map TableListing.name).Nodup) :
  s.byPath = s
  := by
  rw [byPath, map_firstNamed_of_nodup h (f := fun first t => first.under t.entry) fun _ _ => rfl]

theorem CatalogListing.byPath_eq {c : CatalogListing}
    (h : (c.schemas.map SchemaListing.name).Nodup)
    (hbelow : ∀ s ∈ c.schemas, (s.tables.map TableListing.name).Nodup) :
  c.byPath = c
  := by
  have hown : ∀ s ∈ c.schemas, s.byPath.under s.entry = s := by
    intro s hs
    rw [SchemaListing.byPath_eq (hbelow s hs)]
    rfl
  rw [byPath, map_firstNamed_of_nodup h (f := fun first s => first.byPath.under s.entry) hown]

/-- A listing whose siblings have names of their own is read by paths as it is. -/
theorem Listing.byPath_eq {l : Listing} (h : l.DistinctNames) :
  l.byPath = l
  := by
  have hown : ∀ c ∈ l.catalogs, c.byPath.under c.entry = c := by
    intro c hc
    rw [CatalogListing.byPath_eq (h.schemas c hc) (h.tables c hc)]
    rfl
  rw [byPath,
    map_firstNamed_of_nodup h.catalogs (f := fun first c => first.byPath.under c.entry) hown]

/-! ### What a listing answers -/

namespace Listing

variable {l : Listing} {c : CatalogListing} {s : SchemaListing} {t : TableListing}

theorem catalogNamed_eq (hc : c ∈ l.catalogs) :
  l.catalogNamed c.name = .ok (firstNamed CatalogListing.name l.catalogs c)
  := by rw [catalogNamed, find?_eq_firstNamed hc]

/-- A schema of the catalog that is read by a name is read by its own name in that catalog. -/
theorem schemaAt_eq {catalog : String} (hc : l.catalogNamed catalog = .ok c) (hs : s ∈ c.schemas) :
  l.schemaAt ⟨catalog, s.name⟩ = .ok (firstNamed SchemaListing.name c.schemas s)
  := by
  simp only [schemaAt, hc, Bind.bind, Except.bind, find?_eq_firstNamed hs]
  rfl

/-- A table of the schema that is read by a path is read by its own name in that schema. -/
theorem tableAt_eq {path : SchemaPath} (hs : l.schemaAt path = .ok s) (ht : t ∈ s.tables) :
  l.tableAt (path.table t.name) = .ok (firstNamed TableListing.name s.tables t)
  := by
  have hfound : s.tables.find? (fun x => x.name = (path.table t.name).table) = some _ :=
    find?_eq_firstNamed ht
  simp only [tableAt, SchemaPath.schemaPath_table, hs, Bind.bind, Except.bind, hfound]
  rfl

end Listing

section

variable {l : Listing}

/-- A table that is read by a path has what is answered about the path. -/
theorem TableListing.records_under {t : TableListing} {path : TablePath}
    (h : l.tableAt path = .ok t) (e : TableEntry) :
  (t.under e).Records (Answers.given l.answer) path
  := by
  constructor
  all_goals
    simp only [Answers.given, Listing.answer, h]
    rfl

theorem SchemaListing.records_under {s : SchemaListing} {path : SchemaPath}
    (h : l.schemaAt path = .ok s) (e : SchemaEntry) :
  (s.byPath.under e).Records (Answers.given l.answer) path
  := by
  constructor
  case below =>
    simp only [under, byPath, List.forall_mem_map]
    intro t ht
    apply TableListing.records_under (Listing.tableAt_eq h ht)
  case tables =>
    simp only [Answers.given, Listing.answer, h, under, byPath, List.map_map]
    rfl
  all_goals
    simp only [Answers.given, Listing.answer, h]
    rfl

theorem CatalogListing.records_under {c : CatalogListing} {e : CatalogEntry}
    (h : l.catalogNamed e.name = .ok c) :
  (c.byPath.under e).Records (Answers.given l.answer)
  := by
  constructor
  case schemas =>
    simp only [Answers.given, Listing.answer, under, h, byPath, List.map_map]
    rfl
  case below =>
    simp only [under, byPath, List.forall_mem_map]
    intro s hs
    apply SchemaListing.records_under (Listing.schemaAt_eq h hs)

/-- What a listing answers is what it has when it is read by paths. -/
theorem Listing.records_byPath (l : Listing) :
  l.byPath.Records (Answers.given l.answer)
  := by
  constructor
  case catalogs =>
    simp only [Answers.given, answer, byPath, List.map_map]
    rfl
  case below =>
    simp only [byPath, List.forall_mem_map]
    intro c hc
    apply CatalogListing.records_under (catalogNamed_eq hc)

/-- A listing whose siblings have names of their own answers with what it has. -/
theorem Listing.DistinctNames.records {l : Listing} (h : l.DistinctNames) :
  l.Records (Answers.given l.answer)
  := by
  have hrecords := records_byPath l
  rw [byPath_eq h] at hrecords
  exact hrecords

end

/-- The snapshot of a listing has everything that the listing has when it is read by paths.  When
siblings have names of their own, it has everything that is written in the listing, in its place. -/
theorem carries_byPath (l : Listing) {s : Snapshot} (hs : (detach l.source ()).1.result = .ok s) :
  s.Carries l.byPath ∧ (l.DistinctNames → s.Carries l)
  := by
  have hanswers : l.source.AnswersAs l.answer := Source.answersAs_ofAnswers _ _
  obtain ⟨l', hrecords, hnames, -, rfl⟩ := (detach_eq_ok_iff hanswers).mp hs
  obtain rfl := hrecords.eq l.records_byPath
  have hcarries := Listing.snapshot_carries hnames
  use hcarries
  intro hdistinct
  rw [Listing.byPath_eq hdistinct] at hcarries ⊢
  apply hcarries

/-- Two tables, of which the second has another column and another comment. -/
def Listing.pair (first second : String) : Listing :=
  let id : ColumnEntry := { name := "id", dataType := { name := "int" } }
  .ofTables "s"
    [{ name := first, columns := [id] },
     { name := second, comment := "again", columns := [{ id with name := "other" }] }]

/-- When both tables have one name, the snapshot does not have what is written: the second table has
the column of the first. -/
theorem not_carries_pair :
  ∃ s, (detach (Listing.pair "t" "t").source ()).1.result = .ok s
    ∧ ¬ s.Carries (.pair "t" "t")
  := by
  use (Listing.pair "t" "t").byPath.snapshot
  constructor
  · decide +kernel
  · intro h
    obtain ⟨hcatalog, -⟩ := List.forall₂_cons.mp h
    obtain ⟨hschema, -⟩ := List.forall₂_cons.mp hcatalog.schemas
    obtain ⟨-, hrest⟩ := List.forall₂_cons.mp hschema.tables
    obtain ⟨hsecond, -⟩ := List.forall₂_cons.mp hrest
    have hcolumns := hsecond.columns
    revert hcolumns
    decide +kernel

/-- Two tables of one name are detached as they are read by paths, and two tables with names of
their own as they are written. -/
theorem carries_byPath_pair :
  (∃ s, (detach (Listing.pair "t" "t").source ()).1.result = .ok s
    ∧ s.Carries (Listing.pair "t" "t").byPath)
  ∧ ∃ s, (detach (Listing.pair "t" "u").source ()).1.result = .ok s ∧ s.Carries (.pair "t" "u")
  := by
  constructor
  · obtain ⟨s, hs⟩ : ∃ s, (detach (Listing.pair "t" "t").source ()).1.result = .ok s :=
      isOk_iff.mp (by decide +kernel)
    use s, hs
    apply (carries_byPath _ hs).1
  · obtain ⟨s, hs⟩ : ∃ s, (detach (Listing.pair "t" "u").source ()).1.result = .ok s :=
      isOk_iff.mp (by decide +kernel)
    use s, hs
    apply (carries_byPath _ hs).2
    constructor
    case catalogs => decide
    case schemas => decide
    case tables => decide

end DetachedSchema
