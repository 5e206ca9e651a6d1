import DetachedSchema.Proofs.Detach.Alike
import DetachedSchema.Proofs.Detach.ByPath

/-!
# How often a source is asked

Detaching asks one question for the catalogs, one about each catalog, four about each schema and six
about each table that is listed, all of them on its walk.  A question is asked twice only where
siblings share a name.
-/

namespace DetachedSchema

/-! ### How many questions there are -/

/-- The number of questions about what is counted. -/
def Stats.questions (counts : Stats) : Nat :=
  1 + counts.catalogs + 4 * counts.schemas + 6 * counts.tables

theorem SchemaListing.length_questions (s : SchemaListing) (path : SchemaPath) :
  (s.questions path).length = 4 + 6 * s.tables.length
  := by
  have htables : (s.tables.flatMap fun t => (path.table t.name).questions).length
      = 6 * s.tables.length := by
    simp [TablePath.questions, Nat.mul_comm]
  simp only [questions, List.length_append, List.length_cons, List.length_nil, htables]
  omega

theorem CatalogListing.length_questions (c : CatalogListing) :
  c.questions.length
    = 1 + 4 * c.schemas.length + 6 * (c.schemas.flatMap SchemaListing.tables).length
  := by
  have hschemas : (c.schemas.flatMap fun s => s.questions ⟨c.name, s.name⟩).length
      = 4 * c.schemas.length + 6 * (c.schemas.flatMap SchemaListing.tables).length
        + 0 * (c.schemas.flatMap SchemaListing.tables).length := by
    apply length_flatMap_of_parts
    intro s _
    rw [s.length_questions, Nat.zero_mul, Nat.add_zero]
  rw [questions, List.length_cons, hschemas]
  omega

theorem CatalogListing.length_placed (c : CatalogListing) (id : CatalogId) :
  (c.placed id).length = (c.schemas.flatMap SchemaListing.tables).length
  := by
  apply length_flatMap_zipIdx
  intro s i
  simp [SchemaListing.placed]

namespace Listing

theorem length_placed (l : Listing) :
  l.placed.length = (l.catalogs.flatMap fun c => c.schemas.flatMap SchemaListing.tables).length
  := by
  apply length_flatMap_zipIdx
  intro c i
  apply c.length_placed

/-- There is a question for the catalogs, one about each of them, four about each schema and six
about each table. -/
theorem length_questions (l : Listing) :
  l.questions.length
    = 1 + l.catalogs.length + 4 * (l.catalogs.flatMap CatalogListing.schemas).length
      + 6 * l.placed.length
  := by
  have hcatalogs : (l.catalogs.flatMap CatalogListing.questions).length
      = 1 * l.catalogs.length + 4 * (l.catalogs.flatMap CatalogListing.schemas).length
        + 6 * (l.catalogs.flatMap fun c => c.schemas.flatMap SchemaListing.tables).length := by
    apply length_flatMap_of_parts
    intro c _
    apply c.length_questions
  rw [questions, List.length_cons, hcatalogs, length_placed]
  omega

/-- The questions are counted by what was copied. -/
theorem length_questions_draft (l : Listing) :
  l.questions.length = (Snapshot.mk l.draft.content).stats.questions
  := by
  have hcatalogs : l.draft.content.length = l.catalogs.length := by simp [draft, Draft.all]
  have hschemas : (Snapshot.mk l.draft.content).schemas.length
      = (l.catalogs.flatMap CatalogListing.schemas).length := by
    simp only [Snapshot.schemas, draft, Draft.all, List.map_map, List.flatMap_map]
    apply length_flatMap_zipIdx
    intro c i
    simp [CatalogListing.draft, Draft.all]
  rw [length_questions, Stats.questions]
  simp only [Snapshot.stats, hcatalogs, hschemas, tables_draft, List.length_map]

/-- The questions are counted by what the snapshot holds. -/
theorem length_questions_snapshot (l : Listing) :
  l.questions.length = l.snapshot.stats.questions
  := by
  have hcatalogs : l.snapshot.catalogs.length = l.catalogs.length := by simp [snapshot]
  have hschemas : l.snapshot.schemas.length
      = (l.catalogs.flatMap CatalogListing.schemas).length := by
    simp only [Snapshot.schemas, snapshot, List.flatMap_map]
    apply length_flatMap_zipIdx
    intro c i
    simp [CatalogListing.catalog]
  rw [length_questions, Stats.questions]
  simp only [Snapshot.stats, hcatalogs, hschemas, tables_snapshot, List.length_map]

end Listing

/-! ### Which questions are the same -/

/-- The path that a question is about.  Names below what it is about are empty. -/
def Query.path : Query → TablePath
  | .catalogs => ⟨"", "", ""⟩
  | .schemas catalog => ⟨catalog, "", ""⟩
  | .domains p | .tables p | .sequences p | .userTypes p => p.table ""
  | .columns p | .indexes p | .uniqueKeys p | .primaryKey p | .foreignKeys p | .checks p => p

theorem TablePath.path_of_mem_questions {p : TablePath} {q : Query} (hq : q ∈ p.questions) :
  q.path = p
  := by
  simp only [questions, List.mem_cons, List.not_mem_nil, or_false] at hq
  obtain rfl | rfl | rfl | rfl | rfl | rfl := hq
  all_goals rfl

theorem SchemaListing.path_of_mem_questions {s : SchemaListing} {path : SchemaPath} {q : Query}
    (hq : q ∈ s.questions path) :
  q.path.schemaPath = path
  := by
  simp only [questions, List.cons_append, List.mem_cons, List.mem_append, List.mem_flatMap,
    List.not_mem_nil, or_false] at hq
  obtain rfl | rfl | ⟨t, -, hq⟩ | rfl | rfl := hq
  case inr.inr.inl => rw [TablePath.path_of_mem_questions hq, SchemaPath.schemaPath_table]
  all_goals rfl

theorem CatalogListing.path_of_mem_questions {c : CatalogListing} {q : Query}
    (hq : q ∈ c.questions) :
  q.path.catalog = c.name
  := by
  simp only [questions, List.mem_cons, List.mem_flatMap] at hq
  obtain rfl | ⟨s, -, hq⟩ := hq
  · rfl
  · exact congrArg SchemaPath.catalog (SchemaListing.path_of_mem_questions hq)

/-- The questions about a schema differ when its tables have names of their own. -/
theorem SchemaListing.nodup_questions {s : SchemaListing} {path : SchemaPath} :
  (s.questions path).Nodup ↔ (s.tables.map TableListing.name).Nodup
  := by
  let below : List Query := s.tables.flatMap fun t => (path.table t.name).questions
  have htag : ∀ t ∈ s.tables, ∀ q ∈ (path.table t.name).questions, q.path.table = t.name := by
    intro t _ q hq
    rw [TablePath.path_of_mem_questions hq, SchemaPath.table]
  have hbelow : below.Nodup ↔ (s.tables.map TableListing.name).Nodup := by
    apply (nodup_flatMap_iff _ (fun name => .columns (path.table name)) htag _).trans
    · apply and_iff_left
      intro t _
      simp [TablePath.questions]
    · intro t _
      apply List.mem_cons_self
  have hself : .domains path ∉ below ∧ .tables path ∉ below ∧ .sequences path ∉ below
      ∧ .userTypes path ∉ below := by
    simp [below, TablePath.questions]
  rw [← hbelow, questions, List.nodup_append_comm]
  simp [below, hself]

/-- The questions about a catalog differ when its schemas and their tables have names of their
own. -/
theorem CatalogListing.nodup_questions {c : CatalogListing} :
  c.questions.Nodup
    ↔ (c.schemas.map SchemaListing.name).Nodup
      ∧ ∀ s ∈ c.schemas, (s.tables.map TableListing.name).Nodup
  := by
  have hself : .schemas c.name ∉ c.schemas.flatMap fun s => s.questions ⟨c.name, s.name⟩ := by
    simp [SchemaListing.questions, TablePath.questions]
  have htag : ∀ s ∈ c.schemas, ∀ q ∈ s.questions ⟨c.name, s.name⟩, q.path.schema = s.name := by
    intro s _ q hq
    exact congrArg SchemaPath.schema (SchemaListing.path_of_mem_questions hq)
  rw [questions, List.nodup_cons, and_iff_right hself]
  apply (nodup_flatMap_iff _ (fun name => .domains ⟨c.name, name⟩) htag _).trans
  · simp only [SchemaListing.nodup_questions]
  · intro s _
    apply List.mem_cons_self

/-- The questions about a listing differ exactly when siblings have names of their own. -/
theorem Listing.nodup_questions {l : Listing} :
  l.questions.Nodup ↔ l.DistinctNames
  := by
  have hself : .catalogs ∉ l.catalogs.flatMap CatalogListing.questions := by
    simp [CatalogListing.questions, SchemaListing.questions, TablePath.questions]
  have htag : ∀ c ∈ l.catalogs, ∀ q ∈ c.questions, q.path.catalog = c.name :=
    fun _ _ _ hq => CatalogListing.path_of_mem_questions hq
  rw [questions, List.nodup_cons, and_iff_right hself]
  apply (nodup_flatMap_iff _ .schemas htag _).trans
  · simp only [CatalogListing.nodup_questions]
    constructor
    · rintro ⟨hcatalogs, hbelow⟩
      exact ⟨hcatalogs, fun c hc => (hbelow c hc).1, fun c hc => (hbelow c hc).2⟩
    · rintro ⟨hcatalogs, hschemas, htables⟩
      exact ⟨hcatalogs, fun c hc => ⟨hschemas c hc, htables c hc⟩⟩
  · intro c _
    apply List.mem_cons_self

/-! ### The questions of a source -/

/-- When the walk over a source comes to its end, detaching has asked for everything that was
listed, node by node and in order, and for nothing else; the second phase asks nothing.  What was
copied counts the questions, and they all differ exactly when siblings are listed with names of
their own. -/
theorem calls_detach {σ : Type} (source : Source σ) (st : σ) {a : Answers}
    (h : source.AnswersAs a) {draft : Draft (List Catalog)}
    (hdraft : (Walk.copyAll.run source st).1.result = .ok draft) :
  ∃ l : Listing, l.Records a.given ∧ draft = l.draft
    ∧ (detach source st).1.calls = l.questions
    ∧ (Walk.copyAll.run source st).1.calls = l.questions
    ∧ (∀ st', ((Detach.resolveAll draft).run source st').1.calls = [])
    ∧ l.questions.length = (Snapshot.mk draft.content).stats.questions
    ∧ (∀ s, (detach source st).1.result = .ok s → l.questions.length = s.stats.questions)
    ∧ (l.questions.Nodup ↔ a.DistinctNames)
  := by
  rw [Script.result_run h] at hdraft
  obtain ⟨l, hrecords, hnames, rfl⟩ := Walk.canEnd_copyAll.mp (Script.canEnd_given.mpr hdraft)
  use l, hrecords, rfl
  constructor
  · rw [detach, Script.calls_run h, Detach.asked_script hrecords hnames]
  constructor
  · rw [Script.calls_run h, Walk.asked_copyAll hrecords hnames]
  constructor
  · intro st'
    rw [Script.calls_run h, Detach.asked_resolveAll]
  use l.length_questions_draft
  constructor
  · intro s hs
    obtain ⟨l', hrecords', -, -, rfl⟩ := (detach_eq_ok_iff h).mp hs
    obtain rfl := hrecords.eq hrecords'
    apply l.length_questions_snapshot
  · rw [Listing.nodup_questions, hrecords.distinctNames_iff]

/-- Two tables with names of their own make eighteen questions that differ.  The twins are asked
about more than once, and in full, though one of their foreign keys has no target. -/
theorem calls_detach_pair :
  (∃ s, (detach (Listing.pair "t" "u").source ()).1.result = .ok s
    ∧ (detach (Listing.pair "t" "u").source ()).1.calls.length = s.stats.questions
    ∧ (detach (Listing.pair "t" "u").source ()).1.calls.length = 18
    ∧ Answers.DistinctNames (Listing.pair "t" "u").answer)
  ∧ ∃ draft fault, (Walk.copyAll.run Listing.twins.source ()).1.result = .ok draft
    ∧ (detach Listing.twins.source ()).1.result = .error fault
    ∧ (detach Listing.twins.source ()).1.calls.length = (Snapshot.mk draft.content).stats.questions
    ∧ ¬ Answers.DistinctNames Listing.twins.answer
  := by
  constructor
  · have hpair : (Listing.pair "t" "u").source.AnswersAs (Listing.pair "t" "u").answer :=
      Source.answersAs_ofAnswers _ _
    obtain ⟨s, hs⟩ : ∃ s, (detach (Listing.pair "t" "u").source ()).1.result = .ok s := by
      rw [detach, Script.result_run hpair]
      exact isOk_iff.mp (by decide)
    obtain ⟨draft, hdraft⟩ :
        ∃ draft, (Walk.copyAll.run (Listing.pair "t" "u").source ()).1.result = .ok draft := by
      rw [Script.result_run hpair]
      exact isOk_iff.mp (by decide)
    obtain ⟨l, -, -, hcalls, -, -, -, hlength, hnodup⟩ := calls_detach _ () hpair hdraft
    rw [← hcalls] at hlength hnodup
    use s, hs, hlength s hs
    rw [← hnodup, detach, Script.calls_run hpair]
    decide
  · have htwins : Listing.twins.source.AnswersAs Listing.twins.answer :=
      Source.answersAs_ofAnswers _ _
    obtain ⟨draft, hdraft⟩ :
        ∃ draft, (Walk.copyAll.run Listing.twins.source ()).1.result = .ok draft := by
      rw [Script.result_run htwins]
      exact isOk_iff.mp (by decide)
    have hfault : (detach Listing.twins.source ()).1.result
        = .error (.unresolvedReference "lost" "s.t" "s.x" "id") := by
      rw [detach, Script.result_run htwins]
      decide
    obtain ⟨l, -, -, hcalls, -, -, hlength, -, hnodup⟩ := calls_detach _ () htwins hdraft
    rw [← hcalls] at hlength hnodup
    refine ⟨draft, _, hdraft, hfault, hlength, ?_⟩
    rw [← hnodup, detach, Script.calls_run htwins]
    decide

end DetachedSchema
