import DetachedSchema.Detach
import DetachedSchema.Proofs.Detach.Walk

/-!
# What detaching asks

A walk asks for every node that is listed, in order, and the second phase asks nothing.  When every
walked node has answers, the questions are those about the paths that the answers themselves lead
to.
-/

namespace DetachedSchema

/-! ### The questions about a listing -/

/-- The questions about a table. -/
def TablePath.questions (p : TablePath) : List Query :=
  [.columns p, .indexes p, .uniqueKeys p, .primaryKey p, .foreignKeys p, .checks p]

/-- The questions about a schema and its tables. -/
def SchemaListing.questions (s : SchemaListing) (path : SchemaPath) : List Query :=
  .domains path :: .tables path :: (s.tables.flatMap fun t => (path.table t.name).questions)
    ++ [.sequences path, .userTypes path]

/-- The questions about a catalog and its schemas. -/
def CatalogListing.questions (c : CatalogListing) : List Query :=
  .schemas c.name :: c.schemas.flatMap fun s => s.questions ⟨c.name, s.name⟩

/-- The questions about everything in a listing. -/
def Listing.questions (l : Listing) : List Query :=
  .catalogs :: l.catalogs.flatMap CatalogListing.questions

/-! ### Other answers to the same questions -/

section

variable {A B : Possible}

theorem TableListing.Records.mono {t : TableListing} {path : TablePath} (h : t.Records A path)
    (hAB : ∀ q ∈ path.questions, ∀ x, A q x → B q x) :
  t.Records B path
  := by
  simp only [TablePath.questions, List.forall_mem_cons] at hAB
  obtain ⟨hcolumns, hindexes, huniqueKeys, hprimaryKey, hforeignKeys, hchecks, -⟩ := hAB
  constructor
  · exact hcolumns _ h.columns
  · exact hindexes _ h.indexes
  · exact huniqueKeys _ h.uniqueKeys
  · exact hprimaryKey _ h.primaryKey
  · exact hforeignKeys _ h.foreignKeys
  · exact hchecks _ h.checks

theorem SchemaListing.Records.mono {s : SchemaListing} {path : SchemaPath} (h : s.Records A path)
    (hAB : ∀ q ∈ s.questions path, ∀ x, A q x → B q x) :
  s.Records B path
  := by
  simp only [questions, List.cons_append, List.forall_mem_cons, List.forall_mem_append,
    List.mem_flatMap] at hAB
  obtain ⟨hdomains, htables, hbelow, hsequences, huserTypes, -⟩ := hAB
  constructor
  · exact hdomains _ h.domains
  · exact htables _ h.tables
  · intro t ht
    apply (h.below t ht).mono
    intro q hq
    apply hbelow q ⟨t, ht, hq⟩
  · exact hsequences _ h.sequences
  · exact huserTypes _ h.userTypes

theorem CatalogListing.Records.mono {c : CatalogListing} (h : c.Records A)
    (hAB : ∀ q ∈ c.questions, ∀ x, A q x → B q x) :
  c.Records B
  := by
  simp only [questions, List.forall_mem_cons, List.mem_flatMap] at hAB
  obtain ⟨hschemas, hbelow⟩ := hAB
  constructor
  · exact hschemas _ h.schemas
  · intro s hs
    apply (h.below s hs).mono
    intro q hq
    apply hbelow q ⟨s, hs, hq⟩

/-- A listing that records answers records all that answer its questions alike. -/
theorem Listing.Records.mono {l : Listing} (h : l.Records A)
    (hAB : ∀ q ∈ l.questions, ∀ x, A q x → B q x) :
  l.Records B
  := by
  simp only [questions, List.forall_mem_cons, List.mem_flatMap] at hAB
  obtain ⟨hcatalogs, hbelow⟩ := hAB
  constructor
  · exact hcatalogs _ h.catalogs
  · intro c hc
    apply (h.below c hc).mono
    intro q hq
    apply hbelow q ⟨c, hc, hq⟩

end

/-! ### The questions of a walk -/

namespace Walk

variable {a : Answers}

theorem asked_tellStrayKey {path : TablePath} {primary : Option KeyEntry} {place : Option Nat} :
  (tellStrayKey path primary place).asked a = []
  := by
  cases primary with
  | none => rfl
  | some primary => cases place <;> rfl

/-- A table that can be copied is asked about in full. -/
theorem asked_copyTable {id : TableId} {path : TablePath} {e : TableEntry} {d : Draft Table}
    (h : (copyTable id path e).outcome a = .ok d) :
  (copyTable id path e).asked a = path.questions
  := by
  rw [← Script.canEnd_given] at h
  simp only [copyTable, Script.query, Script.bind_eq, Script.pure_eq_done, Script.bind,
    Script.canEnd_bind, Script.canEnd_ask, Script.canEnd_log, Script.canEnd_ofExcept,
    Script.canEnd_forM_log, canEnd_tellStrayKey, Script.canEnd_done, exists_const, true_and] at h
  obtain ⟨columns, hcolumns, indexes, hindexes, xs, hxs, keys, hkeys, ks, hks, primary, hprimary,
    foreignKeys, hforeignKeys, pending, hpending, checks, hchecks, -⟩ := h
  have hidentities : ((extraIdentities columns).forM fun name =>
      Script.log (.extraIdentity path name)).outcome a = .ok () :=
    Script.canEnd_given.mp Script.canEnd_forM_log
  simp only [copyTable, Script.query, Script.bind_eq, Script.pure_eq_done, Script.bind]
  -- What stands between two questions asks nothing, and it does not fail.
  rw [Script.asked_ask hcolumns,
    Script.asked_bind_of_quiet Script.asked_forM_log hidentities,
    Script.asked_ask hindexes,
    Script.asked_bind_of_quiet Script.asked_ofExcept (Script.outcome_ofExcept.trans hxs),
    Script.asked_ask hkeys,
    Script.asked_bind_of_quiet Script.asked_ofExcept (Script.outcome_ofExcept.trans hks),
    Script.asked_ask hprimary,
    Script.asked_bind_of_quiet asked_tellStrayKey outcome_tellStrayKey,
    Script.asked_ask hforeignKeys,
    Script.asked_bind_of_quiet Script.asked_ofExcept (Script.outcome_ofExcept.trans hpending),
    Script.asked_ask hchecks]
  rfl

theorem asked_copyTables {id : SchemaId} {path : SchemaPath} {ts : List TableListing}
    (h : ∀ t ∈ ts, t.Records a.given (path.table t.name) ∧ t.NamesColumns) :
  ((ts.map TableListing.entry).zipIdx.mapM fun x =>
      copyTable (id.table x.2) (path.table x.1.name) x.1).asked a
    = ts.flatMap fun t => (path.table t.name).questions
  := by
  apply Script.asked_mapM_zipIdx
  intro t ht i
  exact ⟨⟨_, outcome_copyTable (h t ht)⟩, asked_copyTable (outcome_copyTable (h t ht))⟩

theorem asked_copySchema {s : SchemaListing} {id : SchemaId} {path : SchemaPath}
    (hA : s.Records a.given path) (hnames : ∀ t ∈ s.tables, t.NamesColumns) :
  (copySchema id path s.entry).asked a = s.questions path
  := by
  have htables : ∀ t ∈ s.tables, t.Records a.given (path.table t.name) ∧ t.NamesColumns :=
    fun t ht => ⟨hA.below t ht, hnames t ht⟩
  simp only [copySchema, Script.query, Script.bind_eq, Script.pure_eq_done, Script.bind]
  rw [Script.asked_bind_of_quiet Script.asked_log Script.outcome_log,
    Script.asked_ask hA.domains, Script.asked_ask hA.tables,
    Script.asked_bind_of_ok (outcome_copyTables htables), asked_copyTables htables,
    Script.asked_ask hA.sequences, Script.asked_ask hA.userTypes]
  rfl

theorem asked_copySchemas {id : CatalogId} {catalog : String} {ss : List SchemaListing}
    (h : ∀ s ∈ ss, s.Records a.given ⟨catalog, s.name⟩ ∧ ∀ t ∈ s.tables, t.NamesColumns) :
  ((ss.map SchemaListing.entry).zipIdx.mapM fun x =>
      copySchema (id.schema x.2) ⟨catalog, x.1.name⟩ x.1).asked a
    = ss.flatMap fun s => s.questions ⟨catalog, s.name⟩
  := by
  apply Script.asked_mapM_zipIdx
  intro s hs i
  exact ⟨⟨_, outcome_copySchema (h s hs)⟩, asked_copySchema (h s hs).1 (h s hs).2⟩

theorem asked_copyCatalog {c : CatalogListing} {id : CatalogId} (hA : c.Records a.given)
    (hnames : ∀ s ∈ c.schemas, ∀ t ∈ s.tables, t.NamesColumns) :
  (copyCatalog id c.entry).asked a = c.questions
  := by
  have hschemas : ∀ s ∈ c.schemas,
      s.Records a.given ⟨c.name, s.name⟩ ∧ ∀ t ∈ s.tables, t.NamesColumns :=
    fun s hs => ⟨hA.below s hs, hnames s hs⟩
  simp only [copyCatalog, Script.query, Script.bind_eq, Script.pure_eq_done, Script.bind]
  rw [CatalogListing.entry, Script.asked_ask hA.schemas,
    Script.asked_bind_of_ok (outcome_copySchemas hschemas), asked_copySchemas hschemas]
  simp [CatalogListing.questions]

/-- A walk asks for everything in the listing that it records. -/
theorem asked_copyAll {l : Listing} (hA : l.Records a.given) (hnames : l.NamesColumns) :
  copyAll.asked a = l.questions
  := by
  have hcatalogs : ((l.catalogs.map CatalogListing.entry).zipIdx.mapM fun x =>
      copyCatalog ⟨x.2⟩ x.1).asked a = l.catalogs.flatMap CatalogListing.questions := by
    apply Script.asked_mapM_zipIdx
    intro c hc i
    exact ⟨⟨_, outcome_copyCatalog ⟨hA.below c hc, hnames c hc⟩⟩,
      asked_copyCatalog (hA.below c hc) (hnames c hc)⟩
  simp only [copyAll, Script.query, Script.bind_eq, Script.pure_eq_done, Script.bind]
  rw [Script.asked_ask hA.catalogs, Script.asked_bind, hcatalogs, Listing.questions]
  congr 1
  split
  · apply List.append_nil
  · apply List.append_nil

end Walk

namespace Detach

variable {a : Answers}

theorem asked_resolve {index : KeyIndex} {k : PendingKey} :
  (resolve index k).asked a = []
  := by
  rw [resolve]
  split
  · split
    · rfl
    · rfl
  · rfl

/-- The second phase asks nothing. -/
theorem asked_resolveAll {draft : Draft (List Catalog)} :
  (resolveAll draft).asked a = []
  := by
  simp only [resolveAll, Script.bind_eq, Script.pure_eq_done]
  rw [Script.asked_bind_of_quiet Script.asked_log Script.outcome_log, Script.asked_bind,
    Script.asked_mapM_eq_nil fun _ => asked_resolve]
  split
  · rfl
  · rfl

/-- Detaching asks what the walk asks. -/
theorem asked_script_eq {name : String} :
  (script name).asked a = Walk.copyAll.asked a
  := by
  simp only [script, Script.bind_eq, Script.pure_eq_done]
  rw [Script.asked_bind_of_quiet Script.asked_log Script.outcome_log, Script.asked_bind]
  cases Walk.copyAll.outcome a with
  | error fault => apply List.append_nil
  | ok draft =>
    have hresolve : ((resolveAll draft).bind fun s =>
        (Script.log (.detached s.stats.catalogs s.stats.schemas s.stats.tables s.stats.foreignKeys
          name)).bind fun _ => .done s).asked a = [] := by
      rw [Script.asked_bind, asked_resolveAll]
      cases (resolveAll draft).outcome a with
      | ok s => rfl
      | error fault => rfl
    apply (congrArg _ hresolve).trans (List.append_nil _)

/-- Detaching asks for everything in the listing that the walk records, also when a foreign key has
no target. -/
theorem asked_script {name : String} {l : Listing} (hA : l.Records a.given)
    (hnames : l.NamesColumns) :
  (script name).asked a = l.questions
  := by rw [asked_script_eq, Walk.asked_copyAll hA hnames]

end Detach

/-! ### Paths that are reached -/

namespace Answers

/-- A catalog is listed with the name. -/
def HasCatalog (a : Answers) (name : String) : Prop :=
  ∃ entries, a .catalogs = .ok entries ∧ ∃ e ∈ entries, e.name = name

/-- A schema is listed with the path. -/
def HasSchema (a : Answers) (p : SchemaPath) : Prop :=
  a.HasCatalog p.catalog
    ∧ ∃ entries, a (.schemas p.catalog) = .ok entries ∧ ∃ e ∈ entries, e.name = p.schema

/-- A table is listed with the path. -/
def HasTable (a : Answers) (p : TablePath) : Prop :=
  a.HasSchema p.schemaPath
    ∧ ∃ entries, a (.tables p.schemaPath) = .ok entries ∧ ∃ e ∈ entries, e.name = p.table

/-- The question is about something that is listed. -/
def Reaches (a : Answers) : Query → Prop
  | .catalogs => True
  | .schemas name => a.HasCatalog name
  | .domains p | .tables p | .sequences p | .userTypes p => a.HasSchema p
  | .columns p | .indexes p | .uniqueKeys p | .primaryKey p | .foreignKeys p | .checks p =>
    a.HasTable p

end Answers

section

variable {a : Answers}

/-- When the answer is known, something is listed when it is in that answer. -/
theorem exists_entry_iff {α : Type} {e : Except Fault (List α)} {entries : List α}
    (h : e = .ok entries) {P : α → Prop} :
  (∃ entries', e = .ok entries' ∧ ∃ x ∈ entries', P x) ↔ ∃ x ∈ entries, P x
  := by
  obtain rfl := h
  simp

theorem Listing.Records.hasCatalog_iff {l : Listing} (h : l.Records a.given) {name : String} :
  a.HasCatalog name ↔ ∃ c ∈ l.catalogs, c.name = name
  := by
  apply (exists_entry_iff h.catalogs).trans
  simp [CatalogListing.entry]

/-- Under the name of a catalog just its schemas are listed. -/
theorem CatalogListing.Records.hasSchema_iff {c : CatalogListing} (h : c.Records a.given)
    (hc : a.HasCatalog c.name) {name : String} :
  a.HasSchema ⟨c.name, name⟩ ↔ ∃ s ∈ c.schemas, s.name = name
  := by
  apply (and_iff_right hc).trans
  apply (exists_entry_iff h.schemas).trans
  simp [SchemaListing.entry]

/-- Under the path of a schema just its tables are listed. -/
theorem SchemaListing.Records.hasTable_iff {s : SchemaListing} {path : SchemaPath}
    (h : s.Records a.given path) (hs : a.HasSchema path) {name : String} :
  a.HasTable (path.table name) ↔ ∃ t ∈ s.tables, t.name = name
  := by
  apply (and_iff_right hs).trans
  apply (exists_entry_iff h.tables).trans
  simp [TableListing.entry, SchemaPath.table]

namespace Listing

variable {l : Listing} (h : l.Records a.given)

include h

theorem Records.hasSchema_iff {p : SchemaPath} :
  a.HasSchema p ↔ ∃ c ∈ l.catalogs, ∃ s ∈ c.schemas, p = ⟨c.name, s.name⟩
  := by
  constructor
  · intro hp
    obtain ⟨catalog, schema⟩ := p
    obtain ⟨c, hc, rfl⟩ := h.hasCatalog_iff.mp hp.1
    obtain ⟨s, hs, rfl⟩ := ((h.below c hc).hasSchema_iff hp.1).mp hp
    use c, hc, s, hs
  · rintro ⟨c, hc, s, hs, rfl⟩
    have hcatalog := h.hasCatalog_iff.mpr ⟨c, hc, rfl⟩
    apply ((h.below c hc).hasSchema_iff hcatalog).mpr ⟨s, hs, rfl⟩

theorem Records.hasTable_iff {p : TablePath} :
  a.HasTable p ↔ ∃ c ∈ l.catalogs, ∃ s ∈ c.schemas, ∃ t ∈ s.tables,
    p = (⟨c.name, s.name⟩ : SchemaPath).table t.name
  := by
  constructor
  · intro hp
    obtain ⟨c, hc, s, hs, hpath⟩ := h.hasSchema_iff.mp hp.1
    rw [← TablePath.table_schemaPath p, hpath] at hp ⊢
    obtain ⟨t, ht, hname⟩ := (((h.below c hc).below s hs).hasTable_iff hp.1).mp hp
    use c, hc, s, hs, t, ht
    rw [hname]
  · rintro ⟨c, hc, s, hs, t, ht, rfl⟩
    have hschema := h.hasSchema_iff.mpr ⟨c, hc, s, hs, rfl⟩
    apply (((h.below c hc).below s hs).hasTable_iff hschema).mpr ⟨t, ht, rfl⟩

/-- The questions about a listing that records answers are those about what is listed. -/
theorem Records.mem_questions {q : Query} :
  q ∈ l.questions ↔ a.Reaches q
  := by
  cases q with
  | catalogs => simp [questions, Answers.Reaches]
  | schemas name =>
    rw [Answers.Reaches, h.hasCatalog_iff]
    simp [questions, CatalogListing.questions, SchemaListing.questions, TablePath.questions,
      eq_comm]
  | domains p | tables p | sequences p | userTypes p =>
    rw [Answers.Reaches, h.hasSchema_iff]
    simp [questions, CatalogListing.questions, SchemaListing.questions, TablePath.questions]
  | columns p | indexes p | uniqueKeys p | primaryKey p | foreignKeys p | checks p =>
    rw [Answers.Reaches, h.hasTable_iff]
    simp [questions, CatalogListing.questions, SchemaListing.questions, TablePath.questions]

end Listing

end

end DetachedSchema
