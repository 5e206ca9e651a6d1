import DetachedSchema.Listing.Prefetch
import DetachedSchema.Proofs.Detach.Answers
import DetachedSchema.Proofs.Detach.ByPath
import DetachedSchema.Proofs.Script.Follows

/-!
# Detaching what was prefetched

Prefetching ends with the listing that records the answers, and a walk follows it question by
question: it may give up before, when a column is named that does not exist, but it asks for nothing
that prefetching does not ask for.  A listing answers what it was prefetched from as its source did,
so detaching the listing is detaching the source.
-/

namespace DetachedSchema

/-! ### What prefetching gives -/

namespace Prefetch

variable {A : Possible} {a : Answers}

theorem canEnd_table {path : TablePath} {e : TableEntry} {t : TableListing} :
  (table path e).CanEnd A t ↔ t.entry = e ∧ t.Records A path
  := by
  simp only [table, Script.query, Script.bind_eq, Script.pure_eq_done, Script.bind,
    Script.canEnd_ask, Script.canEnd_done]
  constructor
  · rintro ⟨columns, hcolumns, indexes, hindexes, keys, hkeys, primary, hprimary, foreignKeys,
      hforeignKeys, checks, hchecks, rfl⟩
    use rfl
    exact ⟨hcolumns, hindexes, hkeys, hprimary, hforeignKeys, hchecks⟩
  · rintro ⟨rfl, hA⟩
    use t.columns, hA.columns, t.indexes, hA.indexes, t.uniqueKeys, hA.uniqueKeys
    use t.primaryKey, hA.primaryKey, t.foreignKeys, hA.foreignKeys, t.checks, hA.checks
    rfl

theorem canEnd_tables {path : SchemaPath} {entries : List TableEntry} {ts : List TableListing} :
  (entries.mapM fun e => table (path.table e.name) e).CanEnd A ts
    ↔ ts.map TableListing.entry = entries ∧ ∀ t ∈ ts, t.Records A (path.table t.name)
  := by
  apply Script.canEnd_mapM_entry
  intro e t
  apply canEnd_table.trans
  apply and_congr_right
  rintro rfl
  rfl

theorem canEnd_schema {path : SchemaPath} {e : SchemaEntry} {s : SchemaListing} :
  (schema path e).CanEnd A s ↔ s.entry = e ∧ s.Records A path
  := by
  simp only [schema, Script.query, Script.bind_eq, Script.pure_eq_done, Script.bind,
    Script.canEnd_bind, Script.canEnd_ask, Script.canEnd_log, Script.canEnd_done, canEnd_tables,
    exists_const, true_and]
  constructor
  · rintro ⟨domains, hdomains, entries, hentries, ts, ⟨rfl, hts⟩, sequences, hsequences,
      userTypes, huserTypes, rfl⟩
    use rfl
    exact ⟨hdomains, hentries, hts, hsequences, huserTypes⟩
  · rintro ⟨rfl, hA⟩
    use s.domains, hA.domains, s.tables.map TableListing.entry, hA.tables
    use s.tables, ⟨rfl, hA.below⟩, s.sequences, hA.sequences, s.userTypes, hA.userTypes
    rfl

theorem canEnd_catalog {e : CatalogEntry} {c : CatalogListing} :
  (catalog e).CanEnd A c ↔ c.entry = e ∧ c.Records A
  := by
  have hschemas : ∀ {entries : List SchemaEntry} {ss : List SchemaListing},
      (entries.mapM fun s => schema ⟨e.name, s.name⟩ s).CanEnd A ss
        ↔ ss.map SchemaListing.entry = entries ∧ ∀ s ∈ ss, s.Records A ⟨e.name, s.name⟩ := by
    intro entries ss
    apply Script.canEnd_mapM_entry
    intro e' s
    apply canEnd_schema.trans
    apply and_congr_right
    rintro rfl
    rfl
  simp only [catalog, Script.query, Script.bind_eq, Script.pure_eq_done, Script.bind,
    Script.canEnd_bind, Script.canEnd_ask, Script.canEnd_done, hschemas]
  constructor
  · rintro ⟨entries, hentries, ss, ⟨rfl, hss⟩, rfl⟩
    exact ⟨rfl, hentries, hss⟩
  · rintro ⟨rfl, hA⟩
    use c.schemas.map SchemaListing.entry, hA.schemas, c.schemas, ⟨rfl, hA.below⟩
    rfl

/-- Prefetching can end with the listings that record possible answers. -/
theorem canEnd_script {name : String} {l : Listing} :
  (script name).CanEnd A l ↔ l.Records A
  := by
  have hcatalogs : ∀ {entries : List CatalogEntry} {cs : List CatalogListing},
      (entries.mapM catalog).CanEnd A cs
        ↔ cs.map CatalogListing.entry = entries ∧ ∀ c ∈ cs, c.Records A :=
    Script.canEnd_mapM_entry fun _ _ => canEnd_catalog
  simp only [script, Script.query, Script.bind_eq, Script.pure_eq_done, Script.bind,
    Script.canEnd_bind, Script.canEnd_ask, Script.canEnd_log, Script.canEnd_done, hcatalogs,
    exists_const, true_and]
  constructor
  · rintro ⟨entries, hentries, cs, ⟨rfl, hcs⟩, rfl⟩
    exact ⟨hentries, hcs⟩
  · rintro ⟨hentries, hcs⟩
    use l.catalogs.map CatalogListing.entry, hentries, l.catalogs, ⟨rfl, hcs⟩

/-! ### What prefetching asks -/

theorem asked_table {t : TableListing} {path : TablePath} (h : t.Records a.given path) :
  (table path t.entry).asked a = path.questions
  := by
  simp only [table, Script.query, Script.bind_eq, Script.pure_eq_done, Script.bind]
  rw [Script.asked_ask h.columns, Script.asked_ask h.indexes, Script.asked_ask h.uniqueKeys,
    Script.asked_ask h.primaryKey, Script.asked_ask h.foreignKeys, Script.asked_ask h.checks]
  rfl

theorem asked_schema {s : SchemaListing} {path : SchemaPath} (h : s.Records a.given path) :
  (schema path s.entry).asked a = s.questions path
  := by
  have htables : ((s.tables.map TableListing.entry).mapM fun e =>
      table (path.table e.name) e).outcome a = .ok s.tables :=
    Script.canEnd_given.mp (canEnd_tables.mpr ⟨rfl, h.below⟩)
  have hasked : ((s.tables.map TableListing.entry).mapM fun e =>
      table (path.table e.name) e).asked a
        = s.tables.flatMap fun t => (path.table t.name).questions := by
    rw [Script.asked_mapM, List.flatMap_map]
    · apply List.flatMap_congr
      intro t ht
      apply asked_table (h.below t ht)
    · simp only [List.forall_mem_map]
      intro t ht
      exact ⟨t, Script.canEnd_given.mp (canEnd_table.mpr ⟨rfl, h.below t ht⟩)⟩
  simp only [schema, Script.query, Script.bind_eq, Script.pure_eq_done, Script.bind]
  rw [Script.asked_bind_of_quiet Script.asked_log Script.outcome_log, Script.asked_ask h.domains,
    Script.asked_ask h.tables, Script.asked_bind_of_ok htables, hasked,
    Script.asked_ask h.sequences, Script.asked_ask h.userTypes]
  rfl

theorem asked_catalog {c : CatalogListing} (h : c.Records a.given) :
  (catalog c.entry).asked a = c.questions
  := by
  have hok : ∀ s ∈ c.schemas, (schema ⟨c.name, s.name⟩ s.entry).outcome a = .ok s :=
    fun s hs => Script.canEnd_given.mp (canEnd_schema.mpr ⟨rfl, h.below s hs⟩)
  have hasked : ((c.schemas.map SchemaListing.entry).mapM fun e =>
      schema ⟨c.name, e.name⟩ e).asked a
        = c.schemas.flatMap fun s => s.questions ⟨c.name, s.name⟩ := by
    rw [Script.asked_mapM, List.flatMap_map]
    · apply List.flatMap_congr
      intro s hs
      apply asked_schema (h.below s hs)
    · simp only [List.forall_mem_map]
      exact fun s hs => ⟨s, hok s hs⟩
  simp only [catalog, Script.query, Script.bind_eq, Script.pure_eq_done, Script.bind]
  rw [CatalogListing.entry, Script.asked_ask h.schemas, Script.asked_bind, hasked,
    CatalogListing.questions]
  congr 1
  split
  · apply List.append_nil
  · apply List.append_nil

/-- Prefetching asks for everything in the listing that it gives. -/
theorem asked_script {name : String} {l : Listing} (h : l.Records a.given) :
  (script name).asked a = l.questions
  := by
  have hasked : ((l.catalogs.map CatalogListing.entry).mapM catalog).asked a
      = l.catalogs.flatMap CatalogListing.questions := by
    rw [Script.asked_mapM, List.flatMap_map]
    · apply List.flatMap_congr
      intro c hc
      apply asked_catalog (h.below c hc)
    · simp only [List.forall_mem_map]
      exact fun c hc => ⟨c, Script.canEnd_given.mp (canEnd_catalog.mpr ⟨rfl, h.below c hc⟩)⟩
  simp only [script, Script.query, Script.bind_eq, Script.pure_eq_done, Script.bind]
  rw [Script.asked_bind_of_quiet Script.asked_log Script.outcome_log,
    Script.asked_ask h.catalogs, Script.asked_bind, hasked, Listing.questions]
  congr 1
  split
  · apply List.append_nil
  · apply List.append_nil

/-! ### A walk beside prefetching -/

/-- Between the questions about a table a walk only tells events and looks up columns. -/
theorem follows_table {id : TableId} {path : TablePath} {e : TableEntry} :
  (Walk.copyTable id path e).Follows a (table path e)
  := by
  simp only [Walk.copyTable, table, Script.query, Script.bind_eq, Script.pure_eq_done, Script.bind]
  apply Script.follows_ask
  intro columns _
  apply Script.follows_of_quiet Script.asked_forM_log
  intro _ _
  apply Script.follows_ask
  intro indexes _
  apply Script.follows_of_quiet Script.asked_ofExcept
  intro _ _
  apply Script.follows_ask
  intro keys _
  apply Script.follows_of_quiet Script.asked_ofExcept
  intro _ _
  apply Script.follows_ask
  intro primary _
  apply Script.follows_of_quiet Walk.asked_tellStrayKey
  intro _ _
  apply Script.follows_ask
  intro foreignKeys _
  apply Script.follows_of_quiet Script.asked_ofExcept
  intro _ _
  apply Script.follows_ask
  intro checks _
  apply Script.follows_of_quiet Script.asked_log
  intro _ _
  apply Script.follows_done

theorem follows_schema {id : SchemaId} {path : SchemaPath} {e : SchemaEntry} :
  (Walk.copySchema id path e).Follows a (schema path e)
  := by
  simp only [Walk.copySchema, schema, Script.query, Script.bind_eq, Script.pure_eq_done,
    Script.bind]
  apply Script.follows_of_quiet Script.asked_log
  intro _ _
  apply Script.Follows.log
  apply Script.follows_ask
  intro domains _
  apply Script.follows_ask
  intro entries _
  apply (Script.follows_mapM_zipIdx fun _ _ => follows_table).bind
  intro _ _ _
  apply Script.follows_ask
  intro sequences _
  apply Script.follows_ask
  intro userTypes _
  apply Script.follows_done

theorem follows_catalog {id : CatalogId} {e : CatalogEntry} :
  (Walk.copyCatalog id e).Follows a (catalog e)
  := by
  simp only [Walk.copyCatalog, catalog, Script.query, Script.bind_eq, Script.pure_eq_done,
    Script.bind]
  apply Script.follows_ask
  intro entries _
  apply (Script.follows_mapM_zipIdx fun _ _ => follows_schema).bind
  intro _ _ _
  apply Script.follows_done

/-- A walk follows prefetching. -/
theorem follows_script {name : String} :
  Walk.copyAll.Follows a (script name)
  := by
  simp only [Walk.copyAll, script, Script.query, Script.bind_eq, Script.pure_eq_done, Script.bind]
  apply Script.Follows.log
  apply Script.follows_ask
  intro entries _
  apply (Script.follows_mapM_zipIdx fun _ _ => follows_catalog).bind
  intro _ _ _
  apply Script.follows_done

end Prefetch

/-! ### What a prefetched listing answers -/

section

variable {A B : Possible}

/-- What records possible answers of two kinds has for every question an answer of both kinds. -/
theorem TableListing.Records.exists_common {t : TableListing} {path : TablePath}
    (hA : t.Records A path) (hB : t.Records B path) {q : Query} (hq : q ∈ path.questions) :
  ∃ x, A q x ∧ B q x
  := by
  simp only [TablePath.questions, List.mem_cons, List.not_mem_nil, or_false] at hq
  obtain rfl | rfl | rfl | rfl | rfl | rfl := hq
  · exact ⟨_, hA.columns, hB.columns⟩
  · exact ⟨_, hA.indexes, hB.indexes⟩
  · exact ⟨_, hA.uniqueKeys, hB.uniqueKeys⟩
  · exact ⟨_, hA.primaryKey, hB.primaryKey⟩
  · exact ⟨_, hA.foreignKeys, hB.foreignKeys⟩
  · exact ⟨_, hA.checks, hB.checks⟩

theorem SchemaListing.Records.exists_common {s : SchemaListing} {path : SchemaPath}
    (hA : s.Records A path) (hB : s.Records B path) {q : Query} (hq : q ∈ s.questions path) :
  ∃ x, A q x ∧ B q x
  := by
  simp only [questions, List.cons_append, List.mem_cons, List.mem_append, List.mem_flatMap,
    List.not_mem_nil, or_false] at hq
  obtain rfl | rfl | ⟨t, ht, hq⟩ | rfl | rfl := hq
  · exact ⟨_, hA.domains, hB.domains⟩
  · exact ⟨_, hA.tables, hB.tables⟩
  · exact (hA.below t ht).exists_common (hB.below t ht) hq
  · exact ⟨_, hA.sequences, hB.sequences⟩
  · exact ⟨_, hA.userTypes, hB.userTypes⟩

theorem CatalogListing.Records.exists_common {c : CatalogListing} (hA : c.Records A)
    (hB : c.Records B) {q : Query} (hq : q ∈ c.questions) :
  ∃ x, A q x ∧ B q x
  := by
  simp only [questions, List.mem_cons, List.mem_flatMap] at hq
  obtain rfl | ⟨s, hs, hq⟩ := hq
  · exact ⟨_, hA.schemas, hB.schemas⟩
  · exact (hA.below s hs).exists_common (hB.below s hs) hq

theorem Listing.Records.exists_common {l : Listing} (hA : l.Records A) (hB : l.Records B)
    {q : Query} (hq : q ∈ l.questions) :
  ∃ x, A q x ∧ B q x
  := by
  simp only [questions, List.mem_cons, List.mem_flatMap] at hq
  obtain rfl | ⟨c, hc, hq⟩ := hq
  · exact ⟨_, hA.catalogs, hB.catalogs⟩
  · exact (hA.below c hc).exists_common (hB.below c hc) hq

end

section

variable {a : Answers}

theorem SchemaListing.Records.byPath_eq {s : SchemaListing} {path : SchemaPath}
    (h : s.Records a.given path) :
  s.byPath = s
  := by
  have hown : ∀ t ∈ s.tables, ∀ t' ∈ s.tables, t'.name = t.name → t'.under t.entry = t := by
    intro t ht t' ht' hname
    have h' := h.below t' ht'
    rw [hname] at h'
    have hunder : (t'.under t.entry).Records a.given (path.table t.name) :=
      ⟨h'.columns, h'.indexes, h'.uniqueKeys, h'.primaryKey, h'.foreignKeys, h'.checks⟩
    apply hunder.eq (h.below t ht) rfl
  have htables := map_firstNamed_eq (f := fun (t' t : TableListing) => t'.under t.entry) hown
  rw [byPath, htables]

theorem CatalogListing.Records.byPath_eq {c : CatalogListing} (h : c.Records a.given) :
  c.byPath = c
  := by
  have hown : ∀ s ∈ c.schemas, ∀ s' ∈ c.schemas, s'.name = s.name →
      s'.byPath.under s.entry = s := by
    intro s hs s' hs' hname
    have h' := h.below s' hs'
    rw [h'.byPath_eq]
    rw [hname] at h'
    have hunder : (s'.under s.entry).Records a.given ⟨c.name, s.name⟩ :=
      ⟨h'.domains, h'.tables, h'.below, h'.sequences, h'.userTypes⟩
    apply hunder.eq (h.below s hs) rfl
  have hschemas :=
    map_firstNamed_eq (f := fun (s' s : SchemaListing) => s'.byPath.under s.entry) hown
  rw [byPath, hschemas]

/-- A listing that records given answers is read by paths as it is: where names repeat, the entries
own the same. -/
theorem Listing.Records.byPath_eq {l : Listing} (h : l.Records a.given) :
  l.byPath = l
  := by
  have hown : ∀ c ∈ l.catalogs, ∀ c' ∈ l.catalogs, c'.name = c.name →
      c'.byPath.under c.entry = c := by
    intro c hc c' hc' hname
    obtain ⟨hschemas, hbelow⟩ := h.below c' hc'
    rw [(h.below c' hc').byPath_eq]
    rw [hname] at hschemas hbelow
    have hunder : (c'.under c.entry).Records a.given := ⟨hschemas, hbelow⟩
    apply hunder.eq (h.below c hc) rfl
  have hcatalogs :=
    map_firstNamed_eq (f := fun (c' c : CatalogListing) => c'.byPath.under c.entry) hown
  rw [byPath, hcatalogs]

/-- A listing that records given answers records its own. -/
theorem Listing.Records.records_answer {l : Listing} (h : l.Records a.given) :
  l.Records (Answers.given l.answer)
  := by
  have hown := records_byPath l
  rw [h.byPath_eq] at hown
  exact hown

/-- A listing answers the questions about itself as the source from which it was prefetched. -/
theorem Listing.Records.answer_eq {l : Listing} (h : l.Records a.given) {q : Query}
    (hq : q ∈ l.questions) :
  l.answer q = a q
  := by
  obtain ⟨x, hanswer, hx⟩ := h.records_answer.exists_common h hq
  exact hanswer.trans hx.symm

/-- Detaching a prefetched listing is detaching the source from which it was prefetched. -/
theorem Listing.Records.outcome_script {l : Listing} (h : l.Records a.given) {name name' : String} :
  (Detach.script name').outcome l.answer = (Detach.script name).outcome a
  := by
  have hquestions : (Prefetch.script name).asked a = l.questions := Prefetch.asked_script h
  have hanswers : ∀ q ∈ (Detach.script name).asked a, l.answer q = a q := by
    intro q hq
    rw [Detach.asked_script_eq] at hq
    apply h.answer_eq
    rw [← hquestions]
    apply Prefetch.follows_script.asked.subset hq
  apply Detach.outcome_script_eq.trans (Script.outcome_congr hanswers).1

end

/-- When answers are given, what is prefetched is the listing that records them. -/
theorem prefetch_eq_ok_iff {σ : Type} {view : Source σ} {a : Answers} (h : view.AnswersAs a)
    {st : σ} {l : Listing} :
  (prefetch view st).1.result = .ok l ↔ l.Records a.given
  := by rw [prefetch, Script.result_run h, ← Script.canEnd_given, Prefetch.canEnd_script]

/-- What is prefetched is detached, and the fault of prefetching is a fault of both. -/
theorem result_detachPrefetched {σ : Type} (view : Source σ) (st : σ) :
  (detachPrefetched view st).1.result
    = (prefetch view st).1.result >>= fun l => (detach l.source ()).1.result
  := by
  simp only [detachPrefetched, Bind.bind, StateT.bind]
  generalize prefetch view st = r
  obtain ⟨⟨result, calls, events⟩, st'⟩ := r
  cases result with
  | ok l => rfl
  | error fault => rfl

section

variable {σ τ : Type} {source : Source σ} {st : σ} {view : Source τ} {st' : τ} {a : Answers}
  (h : source.AnswersAs a) (hview : view.AnswersAs a)

include h hview

/-- Detaching what was prefetched gives what detaching the source gives, snapshot or fault. -/
theorem result_detach_of_prefetch {l : Listing} (hl : (prefetch view st').1.result = .ok l) :
  (detach l.source ()).1.result = (detach source st).1.result
  := by
  have hrecords := (prefetch_eq_ok_iff hview).mp hl
  have hanswers : l.source.AnswersAs l.answer := Source.answersAs_ofAnswers _ _
  rw [detach, Script.result_run hanswers, detach, Script.result_run h]
  exact hrecords.outcome_script

/-- When prefetching fails, so does detaching. -/
theorem exists_fault_of_prefetch {fault : Fault}
    (hprefetch : (prefetch view st').1.result = .error fault) :
  ∃ fault', (detach source st).1.result = .error fault'
  := by
  cases hdetach : (detach source st).1.result with
  | error fault' => exact ⟨fault', rfl⟩
  | ok s =>
    obtain ⟨l, hrecords, -⟩ := (detach_eq_ok_iff h).mp hdetach
    rw [(prefetch_eq_ok_iff hview).mpr hrecords] at hprefetch
    cases hprefetch

theorem result_detachPrefetched_eq_ok {s : Snapshot} :
  (detachPrefetched view st').1.result = .ok s ↔ (detach source st).1.result = .ok s
  := by
  rw [result_detachPrefetched]
  cases hprefetch : (prefetch view st').1.result with
  | ok l =>
    rw [← result_detach_of_prefetch h hview hprefetch]
    rfl
  | error fault =>
    obtain ⟨fault', hdetach⟩ : ∃ fault', (detach source st).1.result = .error fault' :=
      exists_fault_of_prefetch h hview hprefetch
    rw [hdetach]
    constructor
    · intro hs
      cases hs
    · intro hs
      cases hs

end

/-- A source that is walked and a view of it that is prefetched give the same snapshots.  Detaching
what was prefetched gives what detaching the source gives, snapshot or fault; when prefetching
fails, so does detaching.  Detaching asks what prefetching asks, in order, and when its walk comes
to the end it has asked all of it. -/
theorem detach_prefetched {σ τ : Type} (source : Source σ) (st : σ) (view : Source τ) (st' : τ)
    {a : Answers} (h : source.AnswersAs a) (hview : view.AnswersAs a) :
  (∀ s, (detachPrefetched view st').1.result = .ok s ↔ (detach source st).1.result = .ok s)
  ∧ (∀ l, (prefetch view st').1.result = .ok l →
    (detach l.source ()).1.result = (detach source st).1.result)
  ∧ (∀ fault, (prefetch view st').1.result = .error fault →
    ∃ fault', (detach source st).1.result = .error fault')
  ∧ (detach source st).1.calls <+: (prefetch view st').1.calls
  ∧ ∀ draft, (Walk.copyAll.run source st).1.result = .ok draft →
    (detach source st).1.calls = (prefetch view st').1.calls
  := by
  have hfollows : Walk.copyAll.Follows a (Prefetch.script view.name) := Prefetch.follows_script
  refine ⟨fun s => result_detachPrefetched_eq_ok h hview,
    fun l hl => result_detach_of_prefetch h hview hl,
    fun fault hfault => exists_fault_of_prefetch h hview hfault, ?_⟩
  rw [detach, Script.calls_run h, prefetch, Script.calls_run hview, Detach.asked_script_eq,
    Script.result_run h]
  use hfollows.asked
  intro draft hdraft
  apply (hfollows.ended draft hdraft).1

/-- Two tables of which the first has an index over a column that does not exist. -/
def Listing.misspelt : Listing :=
  let id : ColumnEntry := { name := "id", dataType := { name := "int" } }
  .ofTables "s"
    [{ name := "t", columns := [id], indexes := [⟨"by_di", [{ name := "di" }], false⟩] },
     { name := "u", columns := [id] }]

/-- The twins give one snapshot in both ways.  In the other listing a walk gives up at the index of
the first table, while prefetching goes on to the second; detaching what was prefetched then fails
as detaching does. -/
theorem detach_prefetched_twins :
  (∃ s, (detach Source.twins ()).1.result = .ok s
    ∧ (detachPrefetched (Source.twins.named "view") ()).1.result = .ok s
    ∧ (detach Source.twins ()).1.calls = (prefetch (Source.twins.named "view") ()).1.calls)
  ∧ ∃ l, (prefetch (Listing.misspelt.source.named "view") ()).1.result = .ok l
    ∧ (detach l.source ()).1.result = (detach Listing.misspelt.source ()).1.result
    ∧ (detach Listing.misspelt.source ()).1.result
      = .error (.unknownColumn "s.t" "Index by_di" "di")
    ∧ (detach Listing.misspelt.source ()).1.calls
      = [.catalogs, .schemas "", .domains ⟨"", "s"⟩, .tables ⟨"", "s"⟩, .columns ⟨"", "s", "t"⟩,
        .indexes ⟨"", "s", "t"⟩]
    ∧ (detach Listing.misspelt.source ()).1.calls
      <+: (prefetch (Listing.misspelt.source.named "view") ()).1.calls
  := by
  constructor
  · obtain ⟨s, hs⟩ : ∃ s, (detach Source.twins ()).1.result = .ok s :=
      isOk_iff.mp (by decide +kernel)
    obtain ⟨draft, hdraft⟩ : ∃ draft, (Walk.copyAll.run Source.twins ()).1.result = .ok draft :=
      isOk_iff.mp (by decide +kernel)
    obtain ⟨hsnapshot, -, -, -, hcalls⟩ :=
      detach_prefetched Source.twins () (Source.twins.named "view") () Source.answersAs_twins
        Source.answersAs_twins
    exact ⟨s, hs, (hsnapshot s).mpr hs, hcalls draft hdraft⟩
  · obtain ⟨l, hl⟩ : ∃ l, (prefetch (Listing.misspelt.source.named "view") ()).1.result = .ok l :=
      isOk_iff.mp (by decide +kernel)
    obtain ⟨-, hlisting, -, hcalls, -⟩ :=
      detach_prefetched Listing.misspelt.source () (Listing.misspelt.source.named "view") ()
        (Source.answersAs_ofAnswers _ _) (Source.answersAs_ofAnswers _ Listing.misspelt.answer)
    use l, hl, hlisting l hl
    constructor
    · decide +kernel
    constructor
    · decide +kernel
    · exact hcalls

end DetachedSchema
