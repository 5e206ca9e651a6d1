import DetachedSchema.Proofs.Detach.ByPath
import DetachedSchema.Proofs.Detach.Filtered
import DetachedSchema.Proofs.Script.Asks
import DetachedSchema.Proofs.Script.Follows

/-!
# What a filter hides

A walk asks only about nodes that were listed before.  Behind a filter these are nodes that the
filter keeps, so nothing below a hidden node is asked for, and what is hidden has no influence on
what is detached: two sources that answer alike about everything that is kept are detached to the
same snapshot, or fail with the same fault.
-/

namespace DetachedSchema

/-- The question is about something that the filter keeps. -/
def Filter.Admits (f : Filter) : Query → Prop
  | .catalogs => True
  | .schemas name => f.keepsCatalog name
  | .domains p | .tables p | .sequences p | .userTypes p => f.keepsSchema p
  | .columns p | .indexes p | .uniqueKeys p | .primaryKey p | .foreignKeys p | .checks p =>
    f.keepsTable p

instance (f : Filter) : DecidablePred f.Admits
  | .catalogs => isTrue trivial
  | .schemas name => inferInstanceAs (Decidable (f.keepsCatalog name = true))
  | .domains p | .tables p | .sequences p | .userTypes p =>
    inferInstanceAs (Decidable (f.keepsSchema p = true))
  | .columns p | .indexes p | .uniqueKeys p | .primaryKey p | .foreignKeys p | .checks p =>
    inferInstanceAs (Decidable (f.keepsTable p = true))

/-- Both give the same about everything that is listed and kept: what the filter leaves of one
answer is what it leaves of the other, and a fault is the same fault. -/
def Answers.AgreeOn (a b : Answers) (f : Filter) : Prop :=
  ∀ q, a.Reaches q → f.Admits q → (a q).map (f.restrict q) = (b q).map (f.restrict q)

/-! ### From one node to the next -/

/-- The questions about a schema, without those about its tables. -/
def SchemaPath.questions (p : SchemaPath) : List Query :=
  [.domains p, .tables p, .sequences p, .userTypes p]

theorem SchemaPath.forall_mem_questions {p : SchemaPath} {P : Query → Prop} :
  (∀ q ∈ p.questions, P q)
    ↔ P (.domains p) ∧ P (.tables p) ∧ P (.sequences p) ∧ P (.userTypes p)
  := by simp [questions]

theorem TablePath.forall_mem_questions {p : TablePath} {P : Query → Prop} :
  (∀ q ∈ p.questions, P q)
    ↔ P (.columns p) ∧ P (.indexes p) ∧ P (.uniqueKeys p) ∧ P (.primaryKey p)
      ∧ P (.foreignKeys p) ∧ P (.checks p)
  := by simp [questions]

/-- Whatever may be listed in answer to a question with `P` is asked about with `P`. -/
structure Possible.StaysWithin (A : Possible) (P : Query → Prop) : Prop where
  catalogs : P .catalogs
  schemas : ∀ entries, A .catalogs entries → ∀ e ∈ entries, P (.schemas e.name)
  below : ∀ name entries, P (.schemas name) → A (.schemas name) entries →
    ∀ e ∈ entries, ∀ q ∈ SchemaPath.questions ⟨name, e.name⟩, P q
  tables : ∀ path entries, P (.tables path) → A (.tables path) entries →
    ∀ e ∈ entries, ∀ q ∈ (path.table e.name).questions, P q

namespace Walk

variable {A : Possible} {P : Query → Prop}

theorem asksOnly_tellStrayKey {path : TablePath} {primary : Option KeyEntry}
    {place : Option Nat} :
  (tellStrayKey path primary place).AsksOnly A P
  := by
  cases primary with
  | none => trivial
  | some primary => cases place <;> trivial

theorem asksOnly_copyTable {id : TableId} {path : TablePath} {e : TableEntry}
    (h : ∀ q ∈ path.questions, P q) :
  (copyTable id path e).AsksOnly A P
  := by
  obtain ⟨hcolumns, hindexes, huniqueKeys, hprimaryKey, hforeignKeys, hchecks⟩ :=
    TablePath.forall_mem_questions.mp h
  simp only [copyTable, Script.query, Script.bind_eq, Script.pure_eq_done, Script.bind]
  apply Script.asksOnly_ask hcolumns
  intro columns _
  apply Script.asksOnly_forM_log.bind
  intro _
  apply Script.asksOnly_ask hindexes
  intro indexes _
  apply Script.asksOnly_ofExcept.bind
  intro _
  apply Script.asksOnly_ask huniqueKeys
  intro keys _
  apply Script.asksOnly_ofExcept.bind
  intro _
  apply Script.asksOnly_ask hprimaryKey
  intro primary _
  apply asksOnly_tellStrayKey.bind
  intro _
  apply Script.asksOnly_ask hforeignKeys
  intro foreignKeys _
  apply Script.asksOnly_ofExcept.bind
  intro _
  apply Script.asksOnly_ask hchecks
  intro checks _
  apply Script.asksOnly_log.bind
  intro _
  apply Script.asksOnly_done

variable (h : A.StaysWithin P)

include h

theorem asksOnly_copySchema {id : SchemaId} {path : SchemaPath} {e : SchemaEntry}
    (hpath : ∀ q ∈ path.questions, P q) :
  (copySchema id path e).AsksOnly A P
  := by
  obtain ⟨hdomains, htables, hsequences, huserTypes⟩ := SchemaPath.forall_mem_questions.mp hpath
  simp only [copySchema, Script.query, Script.bind_eq, Script.pure_eq_done, Script.bind]
  apply Script.asksOnly_log.bind
  intro _
  apply Script.asksOnly_ask hdomains
  intro domains _
  apply Script.asksOnly_ask htables
  intro entries hentries
  apply Script.AsksOnly.bind
  · apply Script.asksOnly_mapM
    rintro ⟨t, i⟩ ht
    apply asksOnly_copyTable
    apply h.tables path entries htables hentries t (List.fst_mem_of_mem_zipIdx ht)
  · intro drafts
    apply Script.asksOnly_ask hsequences
    intro sequences _
    apply Script.asksOnly_ask huserTypes
    intro userTypes _
    apply Script.asksOnly_done

theorem asksOnly_copyCatalog {id : CatalogId} {e : CatalogEntry} (hname : P (.schemas e.name)) :
  (copyCatalog id e).AsksOnly A P
  := by
  simp only [copyCatalog, Script.query, Script.bind_eq, Script.pure_eq_done, Script.bind]
  apply Script.asksOnly_ask hname
  intro entries hentries
  apply Script.AsksOnly.bind
  · apply Script.asksOnly_mapM
    rintro ⟨s, i⟩ hs
    apply asksOnly_copySchema h
    apply h.below e.name entries hname hentries s (List.fst_mem_of_mem_zipIdx hs)
  · intro drafts
    apply Script.asksOnly_done

/-- A walk stays within what may be asked about. -/
theorem asksOnly_copyAll :
  copyAll.AsksOnly A P
  := by
  simp only [copyAll, Script.query, Script.bind_eq, Script.pure_eq_done, Script.bind]
  apply Script.asksOnly_ask h.catalogs
  intro entries hentries
  apply Script.AsksOnly.bind
  · apply Script.asksOnly_mapM
    rintro ⟨c, i⟩ hc
    apply asksOnly_copyCatalog h
    apply h.schemas entries hentries c (List.fst_mem_of_mem_zipIdx hc)
  · intro drafts
    apply Script.asksOnly_done

end Walk

namespace Detach

variable {A : Possible} {P : Query → Prop}

theorem asksOnly_resolveAll {draft : Draft (List Catalog)} :
  (resolveAll draft).AsksOnly A P
  := by
  simp only [resolveAll, Script.bind_eq, Script.pure_eq_done]
  apply Script.asksOnly_log.bind
  intro _
  apply Script.AsksOnly.bind
  · apply Script.asksOnly_mapM
    intro k _
    rw [resolve]
    split
    · split
      · trivial
      · trivial
    · trivial
  · intro keys
    apply Script.asksOnly_done

/-- Detaching asks for no more than the walk. -/
theorem asksOnly_script (h : A.StaysWithin P) {name : String} :
  (script name).AsksOnly A P
  := by
  simp only [script, Script.bind_eq, Script.pure_eq_done]
  apply Script.asksOnly_log.bind
  intro _
  apply (Walk.asksOnly_copyAll h).bind
  intro draft
  apply Script.asksOnly_log.bind
  intro _
  apply asksOnly_resolveAll.bind
  intro s
  apply Script.asksOnly_log.bind
  intro _
  apply Script.asksOnly_done

end Detach

/-! ### What is listed and kept -/

/-- What a filter leaves of possible answers. -/
def Possible.filtered (A : Possible) (f : Filter) : Possible :=
  fun q x => ∃ y, A q y ∧ x = f.restrict q y

theorem Answers.given_filtered (a : Answers) (f : Filter) :
  (a.filtered f).given = a.given.filtered f
  := by
  funext q x
  simp only [Answers.given, Answers.filtered, Possible.filtered]
  cases a q with
  | ok y => simp [Except.map, eq_comm]
  | error fault => simp [Except.map]

theorem Source.possible_filtered {σ : Type} (source : Source σ) (f : Filter) :
  (source.filtered f).possible = source.possible.filtered f
  := by
  funext q x
  apply propext
  simp only [Source.possible, Possible.filtered, source.result_filtered]
  constructor
  · rintro ⟨st, hst⟩
    cases hy : (source.reply q st).1.result with
    | ok y =>
      rw [hy] at hst
      exact ⟨y, ⟨st, hy⟩, (Except.ok.inj hst).symm⟩
    | error fault =>
      rw [hy] at hst
      cases hst
  · rintro ⟨y, ⟨st, hy⟩, rfl⟩
    use st
    rw [hy]
    rfl

/-- Behind a filter only what it keeps is asked about. -/
theorem Possible.StaysWithin.filtered {A : Possible} {P : Query → Prop} (h : A.StaysWithin P)
    (f : Filter) :
  (A.filtered f).StaysWithin fun q => P q ∧ f.Admits q
  := by
  constructor
  case catalogs => exact ⟨h.catalogs, trivial⟩
  case schemas =>
    rintro _ ⟨entries, hentries, rfl⟩ e he
    obtain ⟨he, hkeep⟩ := List.mem_filter.mp he
    exact ⟨h.schemas entries hentries e he, hkeep⟩
  case below =>
    rintro name _ ⟨hname, -⟩ ⟨entries, hentries, rfl⟩ e he q hq
    obtain ⟨he, hkeep⟩ := List.mem_filter.mp he
    have hadmits : ∀ q ∈ SchemaPath.questions ⟨name, e.name⟩, f.Admits q :=
      SchemaPath.forall_mem_questions.mpr ⟨hkeep, hkeep, hkeep, hkeep⟩
    exact ⟨h.below name entries hname hentries e he q hq, hadmits q hq⟩
  case tables =>
    rintro path _ ⟨hpath, -⟩ ⟨entries, hentries, rfl⟩ e he q hq
    obtain ⟨he, hkeep⟩ := List.mem_filter.mp he
    have hadmits : ∀ q ∈ (path.table e.name).questions, f.Admits q :=
      TablePath.forall_mem_questions.mpr ⟨hkeep, hkeep, hkeep, hkeep, hkeep, hkeep⟩
    exact ⟨h.tables path entries hpath hentries e he q hq, hadmits q hq⟩

/-- Answers lead to what is listed in them. -/
theorem Answers.staysWithin_reaches (a : Answers) :
  a.given.StaysWithin a.Reaches
  := by
  constructor
  case catalogs => trivial
  case schemas =>
    intro entries hentries e he
    exact ⟨entries, hentries, e, he, rfl⟩
  case below =>
    intro name entries hname hentries e he
    have hschema : a.HasSchema ⟨name, e.name⟩ := ⟨hname, entries, hentries, e, he, rfl⟩
    exact SchemaPath.forall_mem_questions.mpr ⟨hschema, hschema, hschema, hschema⟩
  case tables =>
    intro path entries hpath hentries e he
    have htable : a.HasTable (path.table e.name) := ⟨hpath, entries, hentries, e, he, rfl⟩
    exact TablePath.forall_mem_questions.mpr ⟨htable, htable, htable, htable, htable, htable⟩

/-- Whatever a source answers, a filter passes on only the questions about what it keeps. -/
theorem Detach.admits_of_reached {σ : Type} (source : Source σ) (st : σ) (f : Filter) :
  ∀ q ∈ (detach (source.recording.filtered f) (st, [])).2.2, f.Admits q
  := by
  have hany : source.possible.StaysWithin fun _ => True :=
    ⟨trivial, fun _ _ _ _ => trivial, fun _ _ _ _ _ _ _ _ => trivial,
      fun _ _ _ _ _ _ _ _ => trivial⟩
  have hkept := hany.filtered f
  rw [← source.possible_filtered f] at hkept
  rw [detach, Script.run_recording, List.nil_append]
  intro q hq
  apply ((asksOnly_script hkept).calls st q hq).2

namespace Answers.AgreeOn

variable {a b : Answers} {f : Filter} (hab : a.AgreeOn b f)

include hab

/-- Detaching gives the same and asks the same when the answers agree on what is kept. -/
theorem outcome_script {name : String} :
  (Detach.script name).outcome (b.filtered f) = (Detach.script name).outcome (a.filtered f)
  ∧ (Detach.script name).asked (b.filtered f) = (Detach.script name).asked (a.filtered f)
  := by
  have hkept := a.staysWithin_reaches.filtered f
  rw [← a.given_filtered f] at hkept
  apply Script.outcome_congr
  intro q hq
  obtain ⟨hreached, hadmits⟩ := (Detach.asksOnly_script hkept).asked q hq
  exact (hab q hreached hadmits).symm

end Answers.AgreeOn

/-- Sources that agree on what a filter keeps are detached behind it with one result, and are asked
the same questions, none of which is about anything that is hidden.  What is hidden may differ in
any way, and it may fail when it is asked for. -/
theorem detach_of_agreeOn {σ τ : Type} (source : Source σ) (source' : Source τ) (st : σ) (st' : τ)
    {a b : Answers} (h : source.AnswersAs a) (h' : source'.AnswersAs b) (f : Filter)
    (hab : a.AgreeOn b f) :
  (detach (source.filtered f) st).1.result = (detach (source'.filtered f) st').1.result
  ∧ (detach (source.recording.filtered f) (st, [])).2.2
    = (detach (source'.recording.filtered f) (st', [])).2.2
  ∧ ∀ q ∈ (detach (source.recording.filtered f) (st, [])).2.2, f.Admits q
  := by
  constructor
  · rw [detach, detach, Script.result_run (h.filtered f), Script.result_run (h'.filtered f),
      ← hab.outcome_script.1]
    apply Detach.outcome_script_eq
  constructor
  · rw [detach, detach, Script.run_recording, Script.run_recording,
      Script.calls_run (h.filtered f), Script.calls_run (h'.filtered f),
      ← hab.outcome_script.2, Detach.asked_script_eq, Detach.asked_script_eq]
  · apply Detach.admits_of_reached

/-- The fault of whoever asks about something that a filter hides. -/
def Filter.sealed (f : Filter) (q : Query) : Option Fault :=
  if f.Admits q then none else some (.sourceAccess "reading what is hidden" "denied")

/-- Sales that never had a log, and sales with a log, are detached alike when the log is hidden.
The log is not asked for then, not even where it could not be read. -/
theorem detach_of_agreeOn_sales :
  let f := Filter.withoutLog
  let source := (Listing.sales.filtered f).source.failingWhere f.sealed
  (detach (Listing.sales.source.filtered f) ()).1.result = (detach (source.filtered f) ()).1.result
  ∧ (detach (Listing.sales.source.recording.filtered f) ((), [])).2.2
    = (detach (source.recording.filtered f) ((), [])).2.2
  ∧ .columns ⟨"", "s", "log"⟩ ∈ (detach (Listing.sales.source.recording) ((), [])).2.2
  ∧ .columns ⟨"", "s", "log"⟩ ∉ (detach (Listing.sales.source.recording.filtered f) ((), [])).2.2
  ∧ (detach Listing.sales.source ()).1.result ≠ (detach source ()).1.result
  := by
  intro f source
  have hrecords : Listing.sales.Records (Answers.given Listing.sales.answer) := by
    apply Listing.DistinctNames.records
    constructor
    case catalogs => decide
    case schemas => decide
    case tables => decide
  have hsales : Listing.sales.source.AnswersAs Listing.sales.answer :=
    Source.answersAs_ofAnswers _ _
  have hsource : source.AnswersAs _ :=
    (Source.answersAs_ofAnswers _ _).failingWhere f.sealed
  have hagree : Answers.AgreeOn Listing.sales.answer
      (fun q => ((f.sealed q).map .error).getD ((Listing.sales.filtered f).answer q)) f := by
    have hall : ∀ q ∈ Listing.sales.questions, f.Admits q →
        (Listing.sales.answer q).map (f.restrict q)
          = (((f.sealed q).map .error).getD ((Listing.sales.filtered f).answer q)).map
            (f.restrict q) := by
      decide +kernel
    intro q hq
    apply hall q (hrecords.mem_questions.mpr hq)
  obtain ⟨hresult, hasked, hadmits⟩ :=
    detach_of_agreeOn Listing.sales.source source () () hsales hsource f hagree
  use hresult, hasked
  constructor
  · decide +kernel
  constructor
  · intro hlog
    have hkeeps : f.Admits (.columns ⟨"", "s", "log"⟩) := hadmits _ hlog
    revert hkeeps
    decide
  · decide +kernel

end DetachedSchema
