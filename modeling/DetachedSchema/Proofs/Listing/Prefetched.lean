import DetachedSchema.Proofs.Detach.Prefetched

/-!
# What a prefetched listing answers

A prefetched listing answers the questions that were asked to fetch it, and as its source did; every
other question is a fault.  So it stands for its source, and when it is prefetched in its turn the
result is the same listing.  Names may repeat: the listing is filled place by place and read by the
first entry of a name, and places of one path were filled with the same answers.
-/

namespace DetachedSchema

namespace Listing

/-! ### Nodes by their paths -/

/-- A name leads to a catalog of the name, or to a fault of the source. -/
theorem catalogNamed_cases (l : Listing) (name : String) :
  (∃ c ∈ l.catalogs, c.name = name ∧ l.catalogNamed name = .ok c)
    ∨ ∃ context problem, l.catalogNamed name = .error (.sourceAccess context problem)
  := by
  rw [catalogNamed]
  cases hfound : l.catalogs.find? (·.name = name) with
  | some c =>
    left
    use c, List.mem_of_find?_eq_some hfound
    use of_decide_eq_true (List.find?_some hfound :)
  | none =>
    right
    exact ⟨_, _, rfl⟩

/-- A path leads to a schema that is listed with the path, or to a fault of the source. -/
theorem schemaAt_cases (l : Listing) (p : SchemaPath) :
  (∃ c ∈ l.catalogs, ∃ s ∈ c.schemas, p = ⟨c.name, s.name⟩ ∧ l.schemaAt p = .ok s)
    ∨ ∃ context problem, l.schemaAt p = .error (.sourceAccess context problem)
  := by
  obtain ⟨catalog, schema⟩ := p
  obtain ⟨c, hc, rfl, hcatalog⟩ | ⟨context, problem, hfault⟩ := l.catalogNamed_cases catalog
  · simp only [schemaAt, hcatalog, Bind.bind, Except.bind]
    cases hfound : c.schemas.find? (·.name = schema) with
    | some s =>
      obtain rfl : s.name = schema := of_decide_eq_true (List.find?_some hfound :)
      left
      exact ⟨c, hc, s, List.mem_of_find?_eq_some hfound, rfl, rfl⟩
    | none =>
      right
      exact ⟨_, _, rfl⟩
  · right
    use context, problem
    simp only [schemaAt, hfault, Bind.bind, Except.bind]

/-- A path leads to a table that is listed with the path, or to a fault of the source. -/
theorem tableAt_cases (l : Listing) (p : TablePath) :
  (∃ c ∈ l.catalogs, ∃ s ∈ c.schemas, ∃ t ∈ s.tables,
      p = (⟨c.name, s.name⟩ : SchemaPath).table t.name ∧ l.tableAt p = .ok t)
    ∨ ∃ context problem, l.tableAt p = .error (.sourceAccess context problem)
  := by
  obtain ⟨c, hc, s, hs, hpath, hschema⟩ | ⟨context, problem, hfault⟩ :=
    l.schemaAt_cases p.schemaPath
  · simp only [tableAt, hschema, Bind.bind, Except.bind]
    cases hfound : s.tables.find? (·.name = p.table) with
    | some t =>
      have hname : t.name = p.table := of_decide_eq_true (List.find?_some hfound :)
      left
      use c, hc, s, hs, t, List.mem_of_find?_eq_some hfound
      rw [← hpath, hname, TablePath.table_schemaPath]
      exact ⟨rfl, rfl⟩
    | none =>
      right
      exact ⟨_, _, rfl⟩
  · right
    use context, problem
    simp only [tableAt, hfault, Bind.bind, Except.bind]

/-! ### Answers -/

/-- Whatever is not listed is a fault of the source. -/
theorem Records.answer_of_not_reaches {a : Answers} {l : Listing} (h : l.Records a.given)
    {q : Query} (hq : ¬ a.Reaches q) :
  ∃ context problem, l.answer q = .error (.sourceAccess context problem)
  := by
  cases q with
  | catalogs => apply (hq trivial).elim
  | schemas name =>
    obtain ⟨c, hc, hname, -⟩ | ⟨context, problem, hfault⟩ := l.catalogNamed_cases name
    · apply (hq (h.hasCatalog_iff.mpr ⟨c, hc, hname⟩)).elim
    · simp only [answer, hfault]
      exact ⟨_, _, rfl⟩
  | domains p | tables p | sequences p | userTypes p =>
    obtain ⟨c, hc, s, hs, hpath, -⟩ | ⟨context, problem, hfault⟩ := l.schemaAt_cases p
    · apply (hq (h.hasSchema_iff.mpr ⟨c, hc, s, hs, hpath⟩)).elim
    · simp only [answer, hfault]
      exact ⟨_, _, rfl⟩
  | columns p | indexes p | uniqueKeys p | primaryKey p | foreignKeys p | checks p =>
    obtain ⟨c, hc, s, hs, t, ht, hpath, -⟩ | ⟨context, problem, hfault⟩ := l.tableAt_cases p
    · apply (hq (h.hasTable_iff.mpr ⟨c, hc, s, hs, t, ht, hpath⟩)).elim
    · simp only [answer, hfault]
      exact ⟨_, _, rfl⟩

end Listing

/-- A prefetched listing answers the questions that were asked to fetch it, which are those about
what is listed, and as the source did.  All other questions are faults of the source.  What is
prefetched from the listing is the listing. -/
theorem answer_prefetched {σ : Type} (view : Source σ) (st : σ) {a : Answers}
    (h : view.AnswersAs a) {l : Listing} (hl : (prefetch view st).1.result = .ok l) :
  (∀ q, q ∈ (prefetch view st).1.calls ↔ a.Reaches q)
  ∧ (∀ q, a.Reaches q → ∃ x, a q = .ok x ∧ l.answer q = .ok x)
  ∧ (∀ q, ¬ a.Reaches q → ∃ context problem, l.answer q = .error (.sourceAccess context problem))
  ∧ (prefetch l.source ()).1.result = .ok l
  := by
  have hrecords := (prefetch_eq_ok_iff h).mp hl
  rw [prefetch, Script.result_run h] at hl
  have hasked : ∀ q, q ∈ (Prefetch.script view.name).asked a ↔ a.Reaches q := by
    intro q
    rw [Prefetch.asked_script hrecords, hrecords.mem_questions]
  constructor
  · rw [prefetch, Script.calls_run h]
    exact hasked
  constructor
  · intro q hq
    obtain ⟨x, hx⟩ := Script.exists_of_mem_asked hl ((hasked q).mpr hq)
    use x, hx
    rw [hrecords.answer_eq (hrecords.mem_questions.mpr hq), hx]
  constructor
  · intro q hq
    apply hrecords.answer_of_not_reaches hq
  · have hanswers : l.source.AnswersAs l.answer := Source.answersAs_ofAnswers _ _
    apply (prefetch_eq_ok_iff hanswers).mpr hrecords.records_answer

/-- The primary key of the twins is as it was declared, the table that is hidden is a fault, and the
listing of the twins is prefetched as it is. -/
theorem answer_prefetched_twins :
  ∃ l, (prefetch (Source.twins.named "view") ()).1.result = .ok l
    ∧ l.answer (.primaryKey ⟨"", "s", "t"⟩) = .ok (some ⟨"key", ["id"], true⟩)
    ∧ (∃ context problem,
      l.answer (.columns ⟨"", "s", "x"⟩) = .error (.sourceAccess context problem))
    ∧ (prefetch l.source ()).1.result = .ok l
  := by
  have hview : (Source.twins.named "view").AnswersAs Answers.twins := Source.answersAs_twins
  obtain ⟨l, hl⟩ : ∃ l, (prefetch (Source.twins.named "view") ()).1.result = .ok l := by
    rw [prefetch, Script.result_run hview]
    exact isOk_iff.mp (by decide)
  obtain ⟨hcalls, hlisted, hfault, hagain⟩ :=
    answer_prefetched (Source.twins.named "view") () hview hl
  rw [prefetch, Script.calls_run hview] at hcalls
  use l, hl
  constructor
  · obtain ⟨x, hx, hanswer⟩ :=
      hlisted (.primaryKey ⟨"", "s", "t"⟩) ((hcalls _).mp (by decide))
    rw [hanswer, ← hx]
    decide
  constructor
  · apply hfault _ ((hcalls _).not.mp (by decide))
  · exact hagain

end DetachedSchema
