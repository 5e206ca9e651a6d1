import DetachedSchema.Proofs.Detach.Answers
import DetachedSchema.Proofs.Detach.ByPath
import DetachedSchema.Proofs.Detach.Consistency
import DetachedSchema.Proofs.Snapshot.Listing
import DetachedSchema.Proofs.Snapshot.Navigation
import DetachedSchema.Proofs.Snapshot.Referencing
import Mathlib.Data.List.Find

/-!
# Tables by their paths

A path is followed to the first catalog, schema and table of its names, without a second try.  It
leads to the table that is found first among all tables, provided that it leads somewhere when there
is a table with the path.  That is so when siblings have names of their own, and also when a
snapshot was detached: catalogs and schemas that share a name have then been read under one path, so
that the first of them has what the others have.
-/

namespace DetachedSchema

/-- When nothing comes of members without a property, what comes of the first member with it is what
comes first. -/
theorem findSome?_of_find? {α β : Type} {l : List α} {p : α → Bool} {f : α → Option β} {x : α}
    {b : β} (hx : l.find? p = some x) (hnone : ∀ y ∈ l, ¬ p y → f y = none) (hb : f x = some b) :
  l.findSome? f = some b
  := by
  obtain ⟨-, before, after, rfl, hbefore⟩ := List.find?_eq_some_iff_append.mp hx
  apply List.findSome?_eq_some_iff.mpr
  refine ⟨before, x, after, rfl, hb, ?_⟩
  intro y hy
  apply hnone y (List.mem_append_left _ hy)
  simpa using hbefore y hy

namespace Snapshot

variable {s : Snapshot} {t : Table} {path : TablePath}

namespace Consistent

variable (h : s.Consistent)

include h

/-- A table in a schema has a path of the names of the catalog, the schema and the table. -/
theorem path_of_mem {catalog : Catalog} {schema : Schema} (hcatalog : catalog ∈ s.catalogs)
    (hschema : schema ∈ catalog.schemas) (ht : t ∈ schema.tables) :
  t.path = ⟨catalog.name, schema.name, t.name⟩
  := by
  obtain ⟨i, hcatalog⟩ := List.getElem?_of_mem hcatalog
  obtain ⟨j, hschema⟩ := List.getElem?_of_mem hschema
  obtain ⟨k, ht⟩ := List.getElem?_of_mem ht
  exact (h.of_getElem? hcatalog hschema ht).2.1

/-- The table that a path leads to is the first of all tables with the path. -/
theorem find?_tables (ht : s.find? path = some t) :
  s.tables.find? (·.path = path) = some t
  := by
  simp only [find?, Option.bind_eq_bind, Option.bind_eq_some_iff] at ht
  obtain ⟨catalog, hcatalog, schema, hschema, ht⟩ := ht
  have hcatalogMem := List.mem_of_find?_eq_some hcatalog
  have hschemaMem := List.mem_of_find?_eq_some hschema
  have hcatalogName : catalog.name = path.catalog := by simpa using List.find?_some hcatalog
  have hschemaName : schema.name = path.schema := by simpa using List.find?_some hschema
  rw [tables, schemas, List.flatMap_assoc, List.find?_flatMap]
  -- Containers of other names hold no table with the path.
  apply findSome?_of_find? hcatalog
  · intro c hc hname
    simp only [List.find?_eq_none, List.mem_flatMap]
    rintro u ⟨x, hx, hu⟩ hpath
    rw [decide_eq_true_eq, h.path_of_mem hc hx hu] at hpath
    apply hname
    rw [← hpath]
    exact decide_eq_true rfl
  rw [List.find?_flatMap]
  apply findSome?_of_find? hschema
  · intro x hx hname
    rw [List.find?_eq_none]
    intro u hu hpath
    rw [decide_eq_true_eq, h.path_of_mem hcatalogMem hx hu] at hpath
    apply hname
    rw [← hpath]
    exact decide_eq_true rfl
  · rw [← ht]
    apply List.find?_congr
    intro u hu
    rw [h.path_of_mem hcatalogMem hschemaMem hu, hcatalogName, hschemaName]
    exact decide_eq_decide.mpr ⟨fun hpath => by rw [← hpath], fun hname => by rw [hname]⟩

/-- When every path of a table leads somewhere, every path leads to the first table with the
path. -/
theorem find?_eq_scan (hfound : ∀ t ∈ s.tables, (s.find? t.path).isSome) (path : TablePath) :
  s.find? path = s.tables.find? (·.path = path)
  := by
  cases hpath : s.find? path with
  | some t => exact (h.find?_tables hpath).symm
  | none =>
    symm
    rw [List.find?_eq_none]
    intro t ht heq
    have hsome := hfound t ht
    rw [of_decide_eq_true heq, hpath] at hsome
    cases hsome

/-- When siblings have names of their own, the path of a table leads to the table. -/
theorem find?_path (hdistinct : s.DistinctNames) (ht : t ∈ s.tables) :
  s.find? t.path = some t
  := by
  simp only [tables, schemas, List.mem_flatMap] at ht
  obtain ⟨schema, ⟨catalog, hcatalog, hschema⟩, ht⟩ := ht
  have hfirstCatalog : s.catalogNamed? catalog.name = some catalog := by
    rw [catalogNamed?, find?_eq_firstNamed hcatalog,
      firstNamed_of_nodup hdistinct.catalogs hcatalog]
  have hfirstSchema : catalog.schema? schema.name = some schema := by
    rw [Catalog.schema?, find?_eq_firstNamed hschema,
      firstNamed_of_nodup (hdistinct.schemas catalog hcatalog) hschema]
  have hfirstTable : schema.table? t.name = some t := by
    rw [Schema.table?, find?_eq_firstNamed ht,
      firstNamed_of_nodup (hdistinct.tables catalog hcatalog schema hschema) ht]
  rw [h.path_of_mem hcatalog hschema ht]
  simp only [find?, hfirstCatalog, Option.bind_eq_bind, Option.bind_some, hfirstSchema, hfirstTable]

end Consistent

end Snapshot

/-- In the snapshot of a listing, read by paths, the path of every table leads somewhere. -/
theorem Listing.isSome_find?_path {a : Answers} {l : Listing} (h : l.Records a.given) :
  ∀ t ∈ l.snapshot.tables, (l.snapshot.find? t.path).isSome
  := by
  rw [tables_snapshot, List.forall_mem_map]
  intro p hp
  have hpath : (p.listing.table l.key? p.id p.path).path = p.path := rfl
  rw [hpath]
  obtain ⟨-, hmissing⟩ | ⟨p', -, -, hfound⟩ := find?_snapshot h p.path
  · exact absurd (hasTable_of_mem_placed h hp) hmissing
  · rw [hfound]
    rfl

/-- A path leads to the first of all tables that have it, and to none when there is none: in a
snapshot that was detached from a source with answers of its own, whatever names repeat, and in one
that is accepted and whose siblings have names of their own.  There the path of a table leads back
to the table. -/
theorem find?_first (s : Snapshot) :
  (∀ {σ : Type} (source : Source σ) (st : σ) (a : Answers), source.AnswersAs a →
    (detach source st).1.result = .ok s → ∀ path, s.find? path = s.tables.find? (·.path = path))
  ∧ (s.validate = .ok () → s.DistinctNames →
    (∀ path, s.find? path = s.tables.find? (·.path = path))
    ∧ ∀ t ∈ s.tables, s.find? t.path = some t)
  := by
  constructor
  · intro σ source st a hanswers hs
    obtain ⟨l, hrecords, hnames, hresolves, rfl⟩ := (detach_eq_ok_iff hanswers).mp hs
    have hconsistent := Listing.snapshot_consistent hnames hresolves
    apply hconsistent.find?_eq_scan (Listing.isSome_find?_path hrecords)
  · intro hs hdistinct
    have hconsistent := Snapshot.validate_eq_ok.mp hs
    have hown : ∀ t ∈ s.tables, s.find? t.path = some t := fun t ht =>
      hconsistent.find?_path hdistinct ht
    constructor
    · apply hconsistent.find?_eq_scan
      intro t ht
      rw [hown t ht]
      rfl
    · exact hown

/-- A path that four tables of the twins share leads to the first of them, and the path of every
table of the ledger leads back to the table. -/
theorem find?_first_twins :
  (∃ s, (detach Source.twins ()).1.result = .ok s
    ∧ s.tables.map Table.path = List.replicate 4 ⟨"", "s", "t"⟩
    ∧ ∀ path, s.find? path = s.tables.find? (·.path = path))
  ∧ ∀ t ∈ Listing.ledger.snapshot.tables, Listing.ledger.snapshot.find? t.path = some t
  := by
  constructor
  · have hpaths : (detach Source.twins ()).1.result.map (·.tables.map Table.path)
        = .ok (List.replicate 4 ⟨"", "s", "t"⟩) := by
      rw [detach, Script.result_run Source.answersAs_twins]
      decide
    cases hs : (detach Source.twins ()).1.result with
    | error fault =>
      rw [hs] at hpaths
      cases hpaths
    | ok s =>
      rw [hs] at hpaths
      use s, rfl, Except.ok.inj hpaths
      apply (find?_first s).1 Source.twins () Answers.twins Source.answersAs_twins hs
  · have hdistinct : Listing.ledger.snapshot.DistinctNames := by
      constructor
      case catalogs => decide
      case schemas => decide
      case tables => decide
    apply ((find?_first _).2 (by decide) hdistinct).2

end DetachedSchema
