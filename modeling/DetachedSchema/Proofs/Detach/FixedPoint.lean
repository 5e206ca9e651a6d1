import DetachedSchema.Proofs.Detach.Answers

/-!
# Detaching a snapshot again

A snapshot that was detached from a source is its own snapshot.  What it answers makes a listing
that differs from the listing of the source only in what is not copied: which sequences are live,
and which entry, of those that declare one key, is the primary key.  Both have the same draft.
-/

namespace DetachedSchema

/-! ### What is kept of a listing -/

/-- The table with the first unique key that declares its primary key as the primary key. -/
def TableListing.kept (t : TableListing) : TableListing :=
  { t with
    primaryKey := t.primaryKey.bind fun primary => t.uniqueKeys.find? (·.sameKey primary) }

/-- The schema with what is kept of its tables, and without live sequences. -/
def SchemaListing.kept (s : SchemaListing) : SchemaListing :=
  { s with
    tables := s.tables.map TableListing.kept
    sequences := s.sequences.map fun e => { e with live := false } }

/-- The catalog with what is kept of its schemas. -/
def CatalogListing.kept (c : CatalogListing) : CatalogListing :=
  { c with schemas := c.schemas.map SchemaListing.kept }

/-- What is kept of a listing. -/
def Listing.kept (l : Listing) : Listing := ⟨l.catalogs.map CatalogListing.kept⟩

/-- An entry that declares the same key declares it in place of the other. -/
theorem KeyEntry.sameKey_congr {a b : KeyEntry} (h : a.sameKey b) (e : KeyEntry) :
  e.sameKey a = e.sameKey b
  := by
  rw [sameKey_eq] at h
  obtain ⟨hname, hcolumns⟩ := of_decide_eq_true h
  rw [sameKey_eq, sameKey_eq, hname, hcolumns]

/-! ### Drafts -/

/-- The primary key that is kept has the place that the primary key had. -/
theorem TableListing.primaryKeyPlace_kept (t : TableListing) :
  t.kept.primaryKeyPlace = t.primaryKeyPlace
  := by
  rw [primaryKeyPlace, primaryKeyPlace, kept]
  cases t.primaryKey with
  | none => rfl
  | some primary =>
    simp only [Option.bind_some]
    cases hfound : t.uniqueKeys.find? (·.sameKey primary) with
    | none =>
      rw [List.find?_eq_none] at hfound
      apply Eq.symm
      apply List.findIdx?_eq_none_iff.mpr
      simpa using hfound
    | some key =>
      have hsame := List.find?_some hfound
      simp only [Option.bind_some, KeyEntry.sameKey_congr hsame]

theorem TableListing.draft_kept (t : TableListing) (id : TableId) (path : TablePath) :
  t.kept.draft id path = t.draft id path
  := by
  rw [draft, draft, primaryKeyPlace_kept]
  rfl

theorem SchemaListing.draft_kept (s : SchemaListing) (id : SchemaId) (path : SchemaPath) :
  s.kept.draft id path = s.draft id path
  := by
  have htables : s.kept.tables.zipIdx.map
        (fun x => x.1.draft (id.table x.2) (path.table x.1.name))
      = s.tables.zipIdx.map fun x => x.1.draft (id.table x.2) (path.table x.1.name) := by
    simp only [kept, List.zipIdx_map, List.map_map, Function.comp_def, Prod.map,
      TableListing.draft_kept]
    rfl
  have hsequences : s.kept.sequences.map (Walk.copySequence id)
      = s.sequences.map (Walk.copySequence id) := by
    rw [kept, List.map_map]
    rfl
  rw [draft, draft, htables, hsequences]
  rfl

theorem CatalogListing.draft_kept (c : CatalogListing) (id : CatalogId) :
  c.kept.draft id = c.draft id
  := by
  have hschemas : c.kept.schemas.zipIdx.map
        (fun x => x.1.draft (id.schema x.2) ⟨c.kept.name, x.1.name⟩)
      = c.schemas.zipIdx.map fun x => x.1.draft (id.schema x.2) ⟨c.name, x.1.name⟩ := by
    simp only [kept, List.zipIdx_map, List.map_map, Function.comp_def, Prod.map,
      SchemaListing.draft_kept]
    rfl
  rw [draft, draft, hschemas]
  rfl

/-- What is kept of a listing has the same draft. -/
theorem Listing.draft_kept (l : Listing) :
  l.kept.draft = l.draft
  := by
  simp only [draft, kept, List.zipIdx_map, List.map_map, Function.comp_def, Prod.map,
    CatalogListing.draft_kept]
  rfl

theorem Listing.key?_kept (l : Listing) :
  l.kept.key? = l.key?
  := by
  funext r
  rw [key?, key?, draft_kept]

/-- What is kept of a listing has the same snapshot. -/
theorem Listing.snapshot_kept (l : Listing) :
  l.kept.snapshot = l.snapshot
  := by
  rw [← Detach.attach_draft, key?_kept, draft_kept, Detach.attach_draft]

theorem Listing.namesColumns_kept {l : Listing} (h : l.NamesColumns) :
  l.kept.NamesColumns
  := by
  simp only [NamesColumns, kept, CatalogListing.kept, SchemaListing.kept, List.forall_mem_map]
  intro c hc s hs t ht
  obtain ⟨hindexes, hkeys, hforeignKeys⟩ := h c hc s hs t ht
  exact ⟨hindexes, hkeys, hforeignKeys⟩

theorem Listing.resolves_kept {l : Listing} (h : l.Resolves) :
  l.kept.Resolves
  := by
  rw [Resolves, draft_kept, key?_kept]
  apply h

/-! ### Answers -/

section

variable {a : Answers}

/-- What is kept of a table records what is kept of the answers. -/
theorem TableListing.Records.kept {t : TableListing} {path : TablePath}
    (h : t.Records a.given path) :
  t.kept.Records a.kept.given path
  := by
  constructor
  case columns => exact h.columns
  case indexes => exact h.indexes
  case uniqueKeys => exact h.uniqueKeys
  case primaryKey =>
    have hkeys : a (.uniqueKeys path) = .ok t.uniqueKeys := h.uniqueKeys
    have hprimary : a (.primaryKey path) = .ok t.primaryKey := h.primaryKey
    rw [Answers.given, Answers.kept, hkeys, hprimary]
    simp only [TableListing.kept, KeyEntry.sameKey_eq]
    rfl
  case foreignKeys => exact h.foreignKeys
  case checks => exact h.checks

theorem SchemaListing.Records.kept {s : SchemaListing} {path : SchemaPath}
    (h : s.Records a.given path) :
  s.kept.Records a.kept.given path
  := by
  constructor
  case domains => exact h.domains
  case tables =>
    rw [SchemaListing.kept, List.map_map]
    exact h.tables
  case below =>
    simp only [SchemaListing.kept, List.forall_mem_map]
    intro t ht
    apply (h.below t ht).kept
  case sequences =>
    have hsequences : a (.sequences path) = .ok s.sequences := h.sequences
    rw [Answers.given, Answers.kept, hsequences]
    rfl
  case userTypes => exact h.userTypes

theorem CatalogListing.Records.kept {c : CatalogListing} (h : c.Records a.given) :
  c.kept.Records a.kept.given
  := by
  constructor
  case schemas =>
    rw [CatalogListing.kept, List.map_map]
    exact h.schemas
  case below =>
    simp only [CatalogListing.kept, List.forall_mem_map]
    intro s hs
    apply (h.below s hs).kept

theorem Listing.Records.kept {l : Listing} (h : l.Records a.given) :
  l.kept.Records a.kept.given
  := by
  constructor
  case catalogs =>
    rw [Listing.kept, List.map_map]
    exact h.catalogs
  case below =>
    simp only [Listing.kept, List.forall_mem_map]
    intro c hc
    apply (h.below c hc).kept

/-- What is kept leads to the same paths. -/
theorem Answers.reaches_kept {q : Query} :
  a.kept.Reaches q ↔ a.Reaches q
  := by cases q <;> exact Iff.rfl

/-- The snapshot of a listing records what is kept of the listing. -/
theorem Listing.Records.snapshot {l : Listing} (h : l.Records a.given) (hnames : l.NamesColumns)
    (hresolves : l.Resolves) :
  l.kept.Records (Answers.given l.snapshot.answer)
  := by
  apply h.kept.mono
  intro q hq x hx
  have hreached := Answers.reaches_kept.mp (h.kept.mem_questions.mp hq)
  exact (answer_snapshot h hnames hresolves hreached).trans hx

/-- The snapshot of a listing is its own snapshot. -/
theorem Listing.Records.detach_snapshot {l : Listing} (h : l.Records a.given)
    (hnames : l.NamesColumns) (hresolves : l.Resolves) :
  (detach l.snapshot.source ()).1.result = .ok l.snapshot
  := by
  have hanswers : l.snapshot.source.AnswersAs l.snapshot.answer := Source.answersAs_ofAnswers _ _
  rw [detach, Script.result_run hanswers]
  apply Script.canEnd_given.mp
  apply Detach.canEnd_script.mpr
  use l.kept, h.snapshot hnames hresolves
  exact ⟨Listing.namesColumns_kept hnames, Listing.resolves_kept hresolves, l.snapshot_kept.symm⟩

end

/-- A detached snapshot that is detached again gives itself, when the source answers each question
always in the same way. -/
theorem detach_detached {σ : Type} (source : Source σ) (st : σ) {a : Answers}
    (h : source.AnswersAs a) {s : Snapshot} (hs : (detach source st).1.result = .ok s) :
  (detach s.source ()).1.result = .ok s
  := by
  rw [detach, Script.result_run h] at hs
  obtain ⟨l, hrecords, hnames, hresolves, rfl⟩ :=
    Detach.canEnd_script.mp (Script.canEnd_given.mpr hs)
  apply hrecords.detach_snapshot hnames hresolves

/-- The twins are detached twice with one result. -/
theorem detach_detached_twins :
  ∃ s, (detach Source.twins ()).1.result = .ok s ∧ (detach s.source ()).1.result = .ok s
  := by
  obtain ⟨s, hs⟩ : ∃ s, (detach Source.twins ()).1.result = .ok s :=
    isOk_iff.mp (by decide +kernel)
  use s, hs
  apply detach_detached Source.twins () Source.answersAs_twins hs

end DetachedSchema
