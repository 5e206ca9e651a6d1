import DetachedSchema.Proofs.Detach.FixedPoint
import DetachedSchema.Proofs.Snapshot.Filtered

/-!
# Detaching a filtered source

A source that can be detached can be detached behind every filter, and what is detached then is what
the filter leaves of the snapshot of the source.  It is the same whether the source is filtered or
its snapshot.
-/

namespace DetachedSchema

/-! ### What a filtered source answers -/

section

variable {a : Answers} (f : Filter)

theorem TableListing.Records.filtered {t : TableListing} {path : TablePath}
    (h : t.Records a.given path) :
  (t.filtered f).Records (a.filtered f).given path
  := by
  obtain ⟨hcolumns, hindexes, huniqueKeys, hprimaryKey, hforeignKeys, hchecks⟩ := h
  rw [Answers.given] at hcolumns hindexes huniqueKeys hprimaryKey hforeignKeys hchecks
  constructor
  all_goals rw [Answers.given, Answers.filtered]
  case columns => rw [hcolumns]; rfl
  case indexes => rw [hindexes]; rfl
  case uniqueKeys => rw [huniqueKeys]; rfl
  case primaryKey => rw [hprimaryKey]; rfl
  case foreignKeys => rw [hforeignKeys]; rfl
  case checks => rw [hchecks]; rfl

theorem SchemaListing.Records.filtered {s : SchemaListing} {path : SchemaPath}
    (h : s.Records a.given path) :
  (s.filtered f path).Records (a.filtered f).given path
  := by
  obtain ⟨hdomains, htables, hbelow, hsequences, huserTypes⟩ := h
  rw [Answers.given] at hdomains htables hsequences huserTypes
  constructor
  case below =>
    simp only [SchemaListing.filtered, List.forall_mem_map, List.mem_filter, and_imp]
    intro t ht _
    apply (hbelow t ht).filtered f
  all_goals rw [Answers.given, Answers.filtered]
  case domains => rw [hdomains]; rfl
  case tables =>
    rw [htables]
    apply congrArg Except.ok
    simp only [Filter.restrict, SchemaListing.filtered, List.filter_map, List.map_map]
    rfl
  case sequences => rw [hsequences]; rfl
  case userTypes => rw [huserTypes]; rfl

theorem CatalogListing.Records.filtered {c : CatalogListing} (h : c.Records a.given) :
  (c.filtered f).Records (a.filtered f).given
  := by
  obtain ⟨hschemas, hbelow⟩ := h
  constructor
  case schemas =>
    have hschemas : a (.schemas (c.filtered f).name) = .ok _ := hschemas
    rw [Answers.given, Answers.filtered, hschemas]
    apply congrArg Except.ok
    simp only [Filter.restrict, CatalogListing.filtered, List.filter_map, List.map_map]
    rfl
  case below =>
    simp only [CatalogListing.filtered, List.forall_mem_map, List.mem_filter, and_imp]
    intro s hs _
    apply (hbelow s hs).filtered f

/-- What a filter leaves of a listing records what it leaves of the answers. -/
theorem Listing.Records.filtered {l : Listing} (h : l.Records a.given) :
  (l.filtered f).Records (a.filtered f).given
  := by
  obtain ⟨hcatalogs, hbelow⟩ := h
  constructor
  case catalogs =>
    rw [Answers.given] at hcatalogs
    rw [Answers.given, Answers.filtered, hcatalogs]
    apply congrArg Except.ok
    simp only [Filter.restrict, Listing.filtered, List.filter_map, List.map_map]
    rfl
  case below =>
    simp only [Listing.filtered, List.forall_mem_map, List.mem_filter, and_imp]
    intro c hc _
    apply (hbelow c hc).filtered f

variable {l : Listing} (hrecords : l.Records a.given) (hnames : l.NamesColumns)
  (hresolves : l.Resolves)

include hrecords hnames hresolves

/-- When a source can be detached, it can be detached behind a filter, and what is detached then is
what the filter leaves of its snapshot. -/
theorem Detach.result_filtered {σ : Type} {source : Source σ} (h : source.AnswersAs a) (st : σ) :
  (detach (source.filtered f) st).1.result = .ok (l.snapshot.filtered f)
  := by
  apply (detach_eq_ok_iff (h.filtered f)).mpr
  use l.filtered f, hrecords.filtered f, Listing.namesColumns_filtered hnames f
  use Listing.resolves_filtered hresolves f
  rw [Listing.snapshot_filtered hnames hresolves]

end

/-! ### Sources behind a filter -/

/-- Orders with a log and customers, to both of which they refer, and a sequence that is live. -/
def Listing.sales : Listing :=
  let id : ColumnEntry := { name := "id", dataType := { name := "int" } }
  let key : KeyEntry := { name := "pk", columns := ["id"] }
  let log : TableListing := { name := "log", columns := [id], uniqueKeys := [key] }
  let orders : TableListing :=
    { name := "orders"
      columns := [id]
      foreignKeys :=
        [⟨"fk_log", ["id"], true, ⟨⟨"", "s", "log"⟩, ["id"]⟩⟩,
         ⟨"fk_customer", ["id"], true, ⟨⟨"", "s", "customers"⟩, ["id"]⟩⟩] }
  let customers : TableListing :=
    { name := "customers"
      columns := [id]
      uniqueKeys := [key]
      primaryKey := some { key with enforced := false } }
  .ofSchemas
    [{ name := "s"
       tables := [log, orders, customers]
       sequences := [{ name := "q", dataType := { name := "int" }, live := true }] }]

/-- The filter that hides the log. -/
def Filter.withoutLog : Filter := { excludedTables := ["s.log"] }

/-- What can be detached can be detached behind every filter.  The result is what the filter leaves
of the snapshot, and in it every foreign key refers to the key that it referred to. -/
theorem detach_filtered {σ : Type} (source : Source σ) (st st' : σ) {a : Answers}
    (h : source.AnswersAs a) (f : Filter) {s : Snapshot}
    (hs : (detach source st).1.result = .ok s) :
  (detach (source.filtered f) st').1.result = .ok (s.filtered f)
  ∧ ∀ fk ∈ s.foreignKeys, s.keepsForeignKey f fk →
    ∃ T key, s.referencedTable? fk = some T ∧ s.referencedKey? fk = some key
      ∧ (s.filtered f).referencedTable? (fk.renumbered (s.filteredTableId f))
        = some (s.filteredTable f T)
      ∧ (s.filtered f).referencedKey? (fk.renumbered (s.filteredTableId f))
        = some (key.renumbered (s.filteredTableId f))
  := by
  obtain ⟨l, hrecords, hnames, hresolves, rfl⟩ := (detach_eq_ok_iff h).mp hs
  constructor
  · apply Detach.result_filtered f hrecords hnames hresolves h
  · intro fk hfk hkept
    apply Listing.target_filtered hnames hresolves hfk hkept

/-- Without the log there is one table less before the customers, and the orders have one foreign
key less. -/
theorem detach_filtered_sales :
  let s := Listing.sales.snapshot
  let left := s.filtered .withoutLog
  (detach Listing.sales.source ()).1.result = .ok s
  ∧ s.foreignKeys.map ForeignKey.key = [⟨⟨0, 0, 0⟩, 0⟩, ⟨⟨0, 0, 2⟩, 0⟩]
  ∧ (detach (Listing.sales.source.filtered .withoutLog) ()).1.result = .ok left
  ∧ left.foreignKeys.map ForeignKey.key = [⟨⟨0, 0, 1⟩, 0⟩]
  ∧ ∀ fk ∈ s.foreignKeys, s.keepsForeignKey .withoutLog fk →
    ∃ T, s.referencedTable? fk = some T
      ∧ left.referencedTable? (fk.renumbered (s.filteredTableId .withoutLog))
        = some (s.filteredTable .withoutLog T)
  := by
  have hs : (detach Listing.sales.source ()).1.result = .ok Listing.sales.snapshot := by
    decide +kernel
  obtain ⟨hleft, htargets⟩ :=
    detach_filtered Listing.sales.source () () (Source.answersAs_ofAnswers _ _) .withoutLog hs
  use hs
  constructor
  · decide +kernel
  use hleft
  constructor
  · decide +kernel
  · intro fk hfk hkept
    obtain ⟨T, key, hT, -, hT', -⟩ := htargets fk hfk hkept
    exact ⟨T, hT, hT'⟩

/-- It is the same whether a source is filtered, or the snapshot that was detached from it. -/
theorem detach_filtered_snapshot {σ : Type} (source : Source σ) (st st' : σ) {a : Answers}
    (h : source.AnswersAs a) (f : Filter) {s : Snapshot}
    (hs : (detach source st).1.result = .ok s) :
  ∃ s', (detach (s.source.filtered f) ()).1.result = .ok s'
    ∧ (detach (source.filtered f) st').1.result = .ok s'
  := by
  obtain ⟨l, hrecords, hnames, hresolves, rfl⟩ := (detach_eq_ok_iff h).mp hs
  have hanswers : l.snapshot.source.AnswersAs l.snapshot.answer := Source.answersAs_ofAnswers _ _
  use l.snapshot.filtered f
  constructor
  · -- The snapshot answers with what was kept, which has the same snapshot.
    have hkept := hrecords.snapshot hnames hresolves
    have hleft := Detach.result_filtered f hkept (Listing.namesColumns_kept hnames)
      (Listing.resolves_kept hresolves) hanswers ()
    rw [l.snapshot_kept] at hleft
    exact hleft
  · apply Detach.result_filtered f hrecords hnames hresolves h

/-- The log can be hidden before the orders are detached, or afterwards.  Both ways the log is gone,
and so is the reference to it. -/
theorem detach_filtered_snapshot_sales :
  let s := Listing.sales.snapshot
  let left := s.filtered .withoutLog
  (detach (s.source.filtered .withoutLog) ()).1.result = .ok left
  ∧ (detach (Listing.sales.source.filtered .withoutLog) ()).1.result = .ok left
  ∧ s.tables.map (·.path.table) = ["log", "orders", "customers"]
  ∧ s.foreignKeys.map ForeignKey.name = ["fk_log", "fk_customer"]
  ∧ left.tables.map (·.path.table) = ["orders", "customers"]
  ∧ left.foreignKeys.map ForeignKey.name = ["fk_customer"]
  := by
  have hs : (detach Listing.sales.source ()).1.result = .ok Listing.sales.snapshot := by
    decide +kernel
  have hleft : (detach (Listing.sales.source.filtered .withoutLog) ()).1.result
      = .ok (Listing.sales.snapshot.filtered .withoutLog) := by
    decide +kernel
  obtain ⟨left, hafter, hbefore⟩ :=
    detach_filtered_snapshot Listing.sales.source () () (Source.answersAs_ofAnswers _ _)
      .withoutLog hs
  obtain rfl : left = Listing.sales.snapshot.filtered .withoutLog :=
    Except.ok.inj (hbefore.symm.trans hleft)
  use hafter, hbefore
  decide +kernel

end DetachedSchema
