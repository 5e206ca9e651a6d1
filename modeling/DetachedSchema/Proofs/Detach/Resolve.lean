import DetachedSchema.Detach
import DetachedSchema.Proofs.Detach.Walk
import DetachedSchema.Proofs.Listing.Snapshot

/-!
# What detaching gives

Detaching can end with a snapshot exactly when it is the snapshot of a listing that records possible
answers, in which every column that is named exists and every foreign key has a target.
-/

namespace DetachedSchema

/-- What is recorded of a table is recorded under its path. -/
theorem Listing.Records.placed {A : Possible} {l : Listing} (h : l.Records A) {p : PlacedTable}
    (hp : p ∈ l.placed) :
  p.listing.Records A p.path
  := by
  obtain ⟨c, i, s, j, t, k, hc, hs, ht, rfl⟩ := Listing.exists_of_mem_placed hp
  have hcatalog := h.below c (List.mem_of_getElem? hc)
  have hschema := hcatalog.below s (List.mem_of_getElem? hs)
  apply hschema.below t (List.mem_of_getElem? ht)

namespace Detach

variable {A : Possible} {a : Answers}

theorem canEnd_resolve {index : KeyIndex} {k : PendingKey} {fk : ForeignKey} :
  (resolve index k).CanEnd A fk ↔ k.Resolves index.find? ∧ fk = k.settle index.find?
  := by
  rw [resolve, PendingKey.Resolves, PendingKey.settle]
  cases index.find? k.references with
  | none => simp [Script.throw]
  | some key =>
    by_cases h : k.columns.length = k.references.columns.length
    · simp [h, eq_comm]
    · simp [h, Script.throw]

/-- A foreign key that does not resolve is the fault. -/
theorem outcome_resolve_eq_error {index : KeyIndex} {k : PendingKey} {fault : Fault} :
  (resolve index k).outcome a = .error fault
    ↔ ¬ k.Resolves index.find? ∧ fault = unresolved k
  := by
  rw [resolve, PendingKey.Resolves]
  cases index.find? k.references with
  | none => simp [eq_comm]
  | some key =>
    by_cases h : k.columns.length = k.references.columns.length
    · simp [h, Bind.bind, Except.bind]
    · simp [h, eq_comm]

/-- The foreign keys that are attached to a table are those that were put aside for it. -/
theorem attachTable_settle {pending own : List PendingKey} {find : KeyReference → Option KeyId}
    {t : Table} (hown : pending.filter (·.table = t.id) = own) :
  attachTable (pending.map (·.settle find)) t
    = { t with foreignKeys := t.foreignKeys ++ own.map (·.settle find) }
  := by
  have hattached : (pending.map (·.settle find)).filter (·.table = t.id)
      = own.map (·.settle find) := by
    rw [List.filter_map, ← hown]
    rfl
  rw [attachTable, hattached]

/-- What the listing puts aside for a table is attached to that table. -/
theorem attachTable_draft {l : Listing} {p : PlacedTable} (hp : p ∈ l.placed) :
  attachTable (l.draft.pending.map (·.settle l.key?)) p.draft.content
    = p.listing.table l.key? p.id p.path
  := by
  have hown : l.draft.pending.filter (·.table = p.id) = p.draft.pending := by
    rw [Listing.pending_draft]
    apply filter_flatMap_of_nodup l.nodup_ids _ hp
    intro q _ k hk
    obtain ⟨e, -, rfl⟩ := List.mem_map.mp hk
    rfl
  apply attachTable_settle hown

section

variable {keys : List ForeignKey} {find : KeyReference → Option KeyId}

theorem attach_schema {s : SchemaListing} {id : SchemaId} {path : SchemaPath}
    (h : ∀ p ∈ s.placed id path,
      attachTable keys p.draft.content = p.listing.table find p.id p.path) :
  { (s.draft id path).content with
    tables := (s.draft id path).content.tables.map (attachTable keys) } = s.schema find id path
  := by
  have htables : (s.draft id path).content.tables.map (attachTable keys)
      = s.tables.zipIdx.map fun x => x.1.table find (id.table x.2) (path.table x.1.name) := by
    simp only [SchemaListing.draft, Draft.all, List.map_map]
    apply List.map_congr_left
    rintro ⟨t, i⟩ ht
    apply h ⟨id.table i, path.table t.name, t⟩
    apply SchemaListing.mem_placed.mpr
    exact ⟨t, i, List.mk_mem_zipIdx_iff_getElem?.mp ht, rfl⟩
  rw [htables]
  rfl

theorem attach_catalog {c : CatalogListing} {id : CatalogId}
    (h : ∀ p ∈ c.placed id,
      attachTable keys p.draft.content = p.listing.table find p.id p.path) :
  attach keys (c.draft id).content = c.catalog find id
  := by
  rw [attach, CatalogListing.catalog]
  congr 1
  simp only [CatalogListing.draft, Draft.all, List.map_map]
  apply List.map_congr_left
  rintro ⟨s, i⟩ hs
  apply attach_schema
  intro p hp
  apply h
  apply CatalogListing.mem_placed.mpr
  exact ⟨s, i, List.mk_mem_zipIdx_iff_getElem?.mp hs, hp⟩

/-- The snapshot of a listing is its draft with the foreign keys attached. -/
theorem attach_draft (l : Listing) :
  ⟨l.draft.content.map (attach (l.draft.pending.map (·.settle l.key?)))⟩ = l.snapshot
  := by
  rw [Listing.snapshot]
  congr 1
  conv_lhs => rw [Listing.draft, Draft.all, List.map_map, List.map_map]
  apply List.map_congr_left
  rintro ⟨c, i⟩ hc
  apply attach_catalog
  intro p hp
  apply attachTable_draft
  apply Listing.mem_placed.mpr
  exact ⟨c, i, List.mk_mem_zipIdx_iff_getElem?.mp hc, hp⟩

end

/-! ### Both phases -/

/-- The index of a draft finds the first unique keys of the listing. -/
theorem find?_index (l : Listing) :
  (KeyIndex.ofTables (Snapshot.tables ⟨l.draft.content⟩)).find? = l.key?
  := by
  funext r
  apply KeyIndex.find?_ofTables

/-- The draft of a listing can be resolved when the listing resolves, and gives its snapshot. -/
theorem canEnd_resolveAll {l : Listing} {s : Snapshot} :
  (resolveAll l.draft).CanEnd A s ↔ l.Resolves ∧ s = l.snapshot
  := by
  simp only [resolveAll, Script.bind_eq, Script.pure_eq_done, Script.canEnd_bind, Script.canEnd_log,
    Script.canEnd_done, Script.canEnd_mapM fun _ _ => canEnd_resolve, find?_index, exists_const,
    true_and]
  constructor
  · rintro ⟨_, ⟨hresolves, rfl⟩, rfl⟩
    exact ⟨hresolves, attach_draft l⟩
  · rintro ⟨hresolves, rfl⟩
    exact ⟨_, ⟨hresolves, rfl⟩, attach_draft l⟩

/-- The tables of the snapshot are those of the draft with what is attached to them. -/
theorem tables_attach {catalogs : List Catalog} {keys : List ForeignKey} :
  Snapshot.tables ⟨catalogs.map (attach keys)⟩
    = (Snapshot.tables ⟨catalogs⟩).map (attachTable keys)
  := by
  simp only [Snapshot.tables, Snapshot.schemas, attach, List.flatMap_map, List.map_flatMap,
    List.flatMap_assoc]

/-- A draft that cannot be resolved fails as the first foreign key that does not resolve. -/
theorem outcome_resolveAll_eq_error {l : Listing} {fault : Fault} :
  (resolveAll l.draft).outcome a = .error fault
    ↔ ∃ before k after, l.draft.pending = before ++ k :: after
      ∧ (∀ k' ∈ before, k'.Resolves l.key?) ∧ ¬ k.Resolves l.key? ∧ fault = unresolved k
  := by
  have hok : ∀ k : PendingKey,
      (∃ fk, (resolve (.ofTables (Snapshot.tables ⟨l.draft.content⟩)) k).outcome a = .ok fk)
        ↔ k.Resolves l.key? := by
    intro k
    simp only [← Script.canEnd_given, canEnd_resolve, find?_index, exists_and_left, exists_eq,
      and_true]
  have hkeys : (resolveAll l.draft).outcome a = .error fault
      ↔ l.draft.pending.mapM
        (fun k => (resolve (.ofTables (Snapshot.tables ⟨l.draft.content⟩)) k).outcome a)
          = .error fault := by
    simp only [resolveAll, Script.bind_eq, Script.outcome_bind, Script.outcome_log,
      Script.outcome_mapM]
    exact bind_pure_eq_error (f := fun keys => Snapshot.mk (l.draft.content.map (attach keys)))
  rw [hkeys, mapM_eq_error_iff]
  simp only [hok, outcome_resolve_eq_error, find?_index]

/-- When the walk succeeds, the outcome is that of the second phase. -/
theorem outcome_script {name : String} {draft : Draft (List Catalog)}
    (h : Walk.copyAll.outcome a = .ok draft) :
  (script name).outcome a = (resolveAll draft).outcome a
  := by
  simp only [script, Script.bind_eq, Script.pure_eq_done, Script.outcome_bind, Script.outcome_log,
    h, Script.outcome_done]
  exact bind_pure ((resolveAll draft).outcome a)

/-- The name of a source is only told. -/
theorem outcome_script_eq {name name' : String} :
  (script name).outcome a = (script name').outcome a
  := by
  simp only [script, Script.bind_eq, Script.pure_eq_done, Script.outcome_bind, Script.outcome_log,
    Script.outcome_done]

theorem canEnd_script {name : String} {s : Snapshot} :
  (script name).CanEnd A s
    ↔ ∃ l : Listing, l.Records A ∧ l.NamesColumns ∧ l.Resolves ∧ s = l.snapshot
  := by
  simp only [script, Script.bind_eq, Script.pure_eq_done, Script.canEnd_bind, Script.canEnd_log,
    Script.canEnd_done, Walk.canEnd_copyAll, exists_const, true_and]
  constructor
  · rintro ⟨_, ⟨l, hA, hnames, rfl⟩, _, hs, rfl⟩
    exact ⟨l, hA, hnames, canEnd_resolveAll.mp hs⟩
  · rintro ⟨l, hA, hnames, hs⟩
    exact ⟨l.draft, ⟨l, hA, hnames, rfl⟩, s, canEnd_resolveAll.mpr hs, rfl⟩

end Detach

/-- When answers are given, what is detached is the snapshot of the listing that records them. -/
theorem detach_eq_ok_iff {σ : Type} {source : Source σ} {a : Answers} (h : source.AnswersAs a)
    {st : σ} {s : Snapshot} :
  (detach source st).1.result = .ok s
    ↔ ∃ l : Listing, l.Records a.given ∧ l.NamesColumns ∧ l.Resolves ∧ s = l.snapshot
  := by rw [detach, Script.result_run h, ← Script.canEnd_given, Detach.canEnd_script]

end DetachedSchema
