import DetachedSchema.Listing.Source
import DetachedSchema.Proofs.Detach.Questions
import DetachedSchema.Proofs.Detach.Resolve
import DetachedSchema.Proofs.Listing.Entries

/-!
# What a detached snapshot answers

A snapshot answers every question that was asked to detach it, and with what was answered then, but
for two things: no sequence is live, and the primary key is the first unique key of its name over
its columns.  Every other question is a fault.  Names may repeat: all nodes of one path were asked
about with the same questions, so it does not matter which of them a path leads to.
-/

namespace DetachedSchema

/-- What is kept of the answers: no sequence is live, and the primary key is the first unique key of
its name over its columns. -/
def Answers.kept (a : Answers) : Answers
  | .sequences p => do return (← a (.sequences p)).map fun e => { e with live := false }
  | .primaryKey p => do
    let keys ← a (.uniqueKeys p)
    let primary ← a (.primaryKey p)
    return primary.bind fun k => keys.find? fun e => e.name = k.name ∧ e.columns = k.columns
  | q => a q

theorem KeyEntry.sameKey_eq (a b : KeyEntry) :
  a.sameKey b = decide (a.name = b.name ∧ a.columns = b.columns)
  := by simp [sameKey, Bool.beq_eq_decide_eq]

/-! ### Nodes by their paths -/

/-- The schema with a path: the first of its name in the first catalog of its name. -/
def Snapshot.findSchema? (s : Snapshot) (p : SchemaPath) : Option Schema :=
  (s.catalogNamed? p.catalog).bind (·.schema? p.schema)

theorem Snapshot.find?_eq (s : Snapshot) (p : TablePath) :
  s.find? p = (s.findSchema? p.schemaPath).bind (·.table? p.table)
  := by
  rw [find?, findSchema?, Option.bind_assoc]
  rfl

theorem Snapshot.schemaAt_of_eq_some {s : Snapshot} {p : SchemaPath} {schema : Schema}
    (h : s.findSchema? p = some schema) :
  s.schemaAt p = .ok schema
  := by
  obtain ⟨c, hc, hschema⟩ := Option.bind_eq_some_iff.mp h
  simp only [schemaAt, catalogNamed, hc, Bind.bind, Except.bind, hschema]
  rfl

/-- A path that leads to no schema is a fault of the source. -/
theorem Snapshot.schemaAt_of_eq_none {s : Snapshot} {p : SchemaPath} (h : s.findSchema? p = none) :
  ∃ context problem, s.schemaAt p = .error (.sourceAccess context problem)
  := by
  cases hc : s.catalogNamed? p.catalog with
  | none =>
    simp only [schemaAt, catalogNamed, hc]
    exact ⟨_, _, rfl⟩
  | some c =>
    rw [findSchema?, hc, Option.bind_some] at h
    simp only [schemaAt, catalogNamed, hc, Bind.bind, Except.bind, h]
    exact ⟨_, _, rfl⟩

theorem Snapshot.findSchema?_of_schemaAt {s : Snapshot} {p : SchemaPath} {schema : Schema}
    (h : s.schemaAt p = .ok schema) :
  s.findSchema? p = some schema
  := by
  cases hfound : s.findSchema? p with
  | some found =>
    rw [s.schemaAt_of_eq_some hfound] at h
    rw [Except.ok.inj h]
  | none =>
    obtain ⟨_, _, hfault⟩ := s.schemaAt_of_eq_none hfound
    rw [hfault] at h
    cases h

namespace Listing

variable {a : Answers} {l : Listing} (h : l.Records a.given)

include h

theorem hasTable_of_mem_placed {p : PlacedTable} (hp : p ∈ l.placed) :
  a.HasTable p.path
  := by
  obtain ⟨c, i, s, j, t, k, hc, hs, ht, rfl⟩ := exists_of_mem_placed hp
  apply h.hasTable_iff.mpr
  exact ⟨c, List.mem_of_getElem? hc, s, List.mem_of_getElem? hs, t, List.mem_of_getElem? ht, rfl⟩

/-- A path leads to the copy of a schema that is listed with the path. -/
theorem findSchema?_snapshot (p : SchemaPath) :
  (l.snapshot.findSchema? p = none ∧ ¬ a.HasSchema p)
    ∨ ∃ (c : CatalogListing) (i : Nat) (s : SchemaListing) (j : Nat),
      l.catalogs[i]? = some c ∧ c.schemas[j]? = some s ∧ p = ⟨c.name, s.name⟩
      ∧ l.snapshot.findSchema? p = some (s.schema l.key? ⟨i, j⟩ p)
  := by
  obtain ⟨catalog, schema⟩ := p
  obtain ⟨hnone, hcatalog⟩ | ⟨c, i, hc, rfl, hsome⟩ := l.catalogNamed?_snapshot catalog
  · left
    rw [Snapshot.findSchema?, hnone]
    use rfl
    rintro ⟨hp, -⟩
    obtain ⟨c, hc, hname⟩ := h.hasCatalog_iff.mp hp
    apply hcatalog c hc hname
  · have hrecords := h.below c (List.mem_of_getElem? hc)
    rw [Snapshot.findSchema?, hsome, Option.bind_some]
    obtain ⟨hnone, hschema⟩ | ⟨s, j, hs, rfl, hsome⟩ := c.schema?_catalog l.key? ⟨i⟩ schema
    · left
      use hnone
      intro hp
      obtain ⟨s, hs, hname⟩ := (hrecords.hasSchema_iff hp.1).mp hp
      apply hschema s hs hname
    · right
      exact ⟨c, i, s, j, hc, hs, rfl, hsome⟩

/-- A path leads to the copy of a table that is listed with the path. -/
theorem find?_snapshot (p : TablePath) :
  (l.snapshot.find? p = none ∧ ¬ a.HasTable p)
    ∨ ∃ t ∈ l.placed, t.path = p
      ∧ l.snapshot.find? p = some (t.listing.table l.key? t.id t.path)
  := by
  obtain ⟨catalog, schema, table⟩ := p
  rw [Snapshot.find?_eq]
  obtain ⟨hnone, hschema⟩ | ⟨c, i, s, j, hc, hs, hpath, hsome⟩ :=
    findSchema?_snapshot h ⟨catalog, schema⟩
  · left
    rw [TablePath.schemaPath, hnone]
    exact ⟨rfl, fun hp => hschema hp.1⟩
  · obtain ⟨rfl, rfl⟩ := SchemaPath.mk.inj hpath
    have hrecords := (h.below c (List.mem_of_getElem? hc)).below s (List.mem_of_getElem? hs)
    rw [TablePath.schemaPath, hsome, Option.bind_some]
    obtain ⟨hnone, htable⟩ | ⟨t, k, ht, rfl, hsome⟩ :=
      s.table?_schema l.key? ⟨i, j⟩ ⟨c.name, s.name⟩ table
    · left
      use hnone
      intro hp
      obtain ⟨t, ht, hname⟩ := (hrecords.hasTable_iff hp.1).mp hp
      apply htable t ht hname
    · right
      exact ⟨_, mem_placed_of_getElem? hc hs ht, rfl, hsome⟩

theorem exists_catalogNamed {name : String} (hname : a.HasCatalog name) :
  ∃ (c : CatalogListing) (i : Nat), c.Records a.given ∧ c.name = name
    ∧ l.snapshot.catalogNamed name = .ok (c.catalog l.key? ⟨i⟩)
  := by
  obtain ⟨-, hnone⟩ | ⟨c, i, hc, rfl, hsome⟩ := l.catalogNamed?_snapshot name
  · obtain ⟨c, hc, hname⟩ := h.hasCatalog_iff.mp hname
    apply (hnone c hc hname).elim
  · use c, i, h.below c (List.mem_of_getElem? hc), rfl
    rw [Snapshot.catalogNamed, hsome]

theorem exists_schemaAt {p : SchemaPath} (hp : a.HasSchema p) :
  ∃ (s : SchemaListing) (id : SchemaId), s.Records a.given p
    ∧ l.snapshot.schemaAt p = .ok (s.schema l.key? id p)
  := by
  obtain ⟨-, hnone⟩ | ⟨c, i, s, j, hc, hs, rfl, hsome⟩ := findSchema?_snapshot h p
  · apply (hnone hp).elim
  · have hrecords := (h.below c (List.mem_of_getElem? hc)).below s (List.mem_of_getElem? hs)
    exact ⟨s, _, hrecords, Snapshot.schemaAt_of_eq_some hsome⟩

theorem exists_tableAt {p : TablePath} (hp : a.HasTable p) :
  ∃ t ∈ l.placed, t.path = p ∧ l.snapshot.tableAt p = .ok (t.listing.table l.key? t.id t.path)
  := by
  obtain ⟨-, hnone⟩ | ⟨t, ht, rfl, hsome⟩ := find?_snapshot h p
  · apply (hnone hp).elim
  · use t, ht, rfl
    rw [Snapshot.tableAt, hsome]

/-! ### Answers -/

/-- What is asked about a table that is listed is answered with what was kept. -/
theorem answer_snapshot_table (hnames : l.NamesColumns) (hresolves : l.Resolves) {p : TablePath}
    (hp : a.HasTable p) :
  ∀ q ∈ p.questions, l.snapshot.answer q = a.kept q
  := by
  -- Tables may share the path: any of them has what was answered about it.
  obtain ⟨t, ht, rfl, htable⟩ := exists_tableAt h hp
  obtain ⟨hcolumns, hindexes, hkeys, hprimary, hforeignKeys, hchecks⟩ := h.placed ht
  have hplaces := forall_placed hnames t ht
  simp only [TablePath.questions, List.forall_mem_cons, Snapshot.answer, htable]
  constructor
  · apply Eq.trans _ hcolumns.symm
    apply congrArg Except.ok (t.listing.entries_columns t.id t.path)
  constructor
  · apply Eq.trans _ hindexes.symm
    apply congrArg Except.ok (TableListing.entries_indexes t.id t.path hplaces)
  constructor
  · apply Eq.trans _ hkeys.symm
    apply congrArg Except.ok (TableListing.entries_uniqueKeys t.id t.path hplaces)
  constructor
  · rw [Answers.given] at hkeys hprimary
    rw [Answers.kept, hkeys, hprimary]
    apply congrArg Except.ok
    apply (TableListing.entry_primaryKey t.id t.path hplaces).trans
    simp only [KeyEntry.sameKey_eq]
  constructor
  · apply Eq.trans _ hforeignKeys.symm
    apply TableListing.entries_foreignKeys t.id t.path hplaces hnames
    apply hresolves.placed ht
  constructor
  · exact hchecks.symm
  · apply List.forall_mem_nil

/-- What is asked about a schema that is listed is answered with what was kept. -/
theorem answer_snapshot_schema {p : SchemaPath} (hp : a.HasSchema p) :
  ∀ q ∈ [.domains p, .tables p, .sequences p, .userTypes p], l.snapshot.answer q = a.kept q
  := by
  obtain ⟨s, id, hs, hschema⟩ := exists_schemaAt h hp
  obtain ⟨hdomains, htables, -, hsequences, huserTypes⟩ := hs
  simp only [List.forall_mem_cons, Snapshot.answer, hschema]
  constructor
  · apply Eq.trans _ hdomains.symm
    apply congrArg Except.ok (s.entries_domains id p)
  constructor
  · apply Eq.trans _ htables.symm
    apply congrArg Except.ok (s.entries_tables id p)
  constructor
  · rw [Answers.given] at hsequences
    rw [Answers.kept, hsequences]
    apply congrArg Except.ok (s.entries_sequences id p)
  constructor
  · apply Eq.trans _ huserTypes.symm
    apply congrArg Except.ok (s.entries_userTypes id p)
  · apply List.forall_mem_nil

/-- Whatever is listed is answered with what was kept. -/
theorem answer_snapshot (hnames : l.NamesColumns) (hresolves : l.Resolves) {q : Query}
    (hq : a.Reaches q) :
  l.snapshot.answer q = a.kept q
  := by
  cases q with
  | catalogs =>
    apply Eq.trans _ h.catalogs.symm
    apply congrArg Except.ok l.entries_catalogs
  | schemas name =>
    obtain ⟨c, i, hc, rfl, hcatalog⟩ := exists_catalogNamed h hq
    apply Eq.trans _ hc.schemas.symm
    rw [Snapshot.answer, hcatalog]
    apply congrArg Except.ok (c.entries_schemas ⟨i⟩)
  | domains p | tables p | sequences p | userTypes p =>
    apply answer_snapshot_schema h hq
    simp
  | columns p | indexes p | uniqueKeys p | primaryKey p | foreignKeys p | checks p =>
    apply answer_snapshot_table h hnames hresolves hq
    simp [TablePath.questions]

/-- Whatever is not listed is a fault of the source. -/
theorem answer_snapshot_of_not_reaches {q : Query} (hq : ¬ a.Reaches q) :
  ∃ context problem, l.snapshot.answer q = .error (.sourceAccess context problem)
  := by
  cases q with
  | catalogs => apply (hq trivial).elim
  | schemas name =>
    obtain ⟨hnone, -⟩ | ⟨c, i, hc, rfl, -⟩ := l.catalogNamed?_snapshot name
    · simp only [Snapshot.answer, Snapshot.catalogNamed, hnone]
      exact ⟨_, _, rfl⟩
    · apply (hq (h.hasCatalog_iff.mpr ⟨c, List.mem_of_getElem? hc, rfl⟩)).elim
  | domains p | tables p | sequences p | userTypes p =>
    obtain ⟨hnone, -⟩ | ⟨c, i, s, j, hc, hs, rfl, -⟩ := findSchema?_snapshot h p
    · obtain ⟨context, problem, hfault⟩ := Snapshot.schemaAt_of_eq_none hnone
      simp only [Snapshot.answer, hfault]
      exact ⟨_, _, rfl⟩
    · have hlisted := h.hasSchema_iff.mpr
        ⟨c, List.mem_of_getElem? hc, s, List.mem_of_getElem? hs, rfl⟩
      apply (hq hlisted).elim
  | columns p | indexes p | uniqueKeys p | primaryKey p | foreignKeys p | checks p =>
    obtain ⟨hnone, -⟩ | ⟨t, ht, rfl, -⟩ := find?_snapshot h p
    · simp only [Snapshot.answer, Snapshot.tableAt, hnone]
      exact ⟨_, _, rfl⟩
    · apply (hq (hasTable_of_mem_placed h ht)).elim

end Listing

/-- Whatever was asked on the way to a snapshot is kept. -/
theorem Answers.exists_kept {a : Answers} (h : ∀ q, a.Reaches q → ∃ x, a q = .ok x) {q : Query}
    (hq : a.Reaches q) :
  ∃ x, a.kept q = .ok x
  := by
  obtain ⟨x, hx⟩ := h q hq
  cases q with
  | sequences p =>
    rw [kept, hx]
    exact ⟨_, rfl⟩
  | primaryKey p =>
    obtain ⟨keys, hkeys⟩ := h (.uniqueKeys p) hq
    rw [kept, hkeys, hx]
    exact ⟨_, rfl⟩
  | _ => exact ⟨x, hx⟩

/-- A detached snapshot answers the questions that were asked to detach it, which are those about
what is listed, and with what was kept of the answers.  All other questions are faults of the
source. -/
theorem answer_detached {σ : Type} (source : Source σ) (st : σ) {a : Answers}
    (h : source.AnswersAs a) {s : Snapshot} (hs : (detach source st).1.result = .ok s) :
  (∀ q, q ∈ (detach source st).1.calls ↔ a.Reaches q)
  ∧ (∀ q, a.Reaches q → ∃ x, a.kept q = .ok x ∧ s.answer q = .ok x)
  ∧ ∀ q, ¬ a.Reaches q → ∃ context problem, s.answer q = .error (.sourceAccess context problem)
  := by
  rw [detach, Script.result_run h] at hs
  rw [detach, Script.calls_run h]
  obtain ⟨l, hrecords, hnames, hresolves, rfl⟩ :=
    Detach.canEnd_script.mp (Script.canEnd_given.mpr hs)
  have hasked : ∀ q, q ∈ (Detach.script source.name).asked a ↔ a.Reaches q := by
    intro q
    rw [Detach.asked_script hrecords hnames, hrecords.mem_questions]
  use hasked
  constructor
  · intro q hq
    have hanswers := fun q hq => Script.exists_of_mem_asked hs ((hasked q).mpr hq)
    obtain ⟨x, hx⟩ := Answers.exists_kept hanswers hq
    use x, hx
    rw [Listing.answer_snapshot hrecords hnames hresolves hq, hx]
  · intro q hq
    apply Listing.answer_snapshot_of_not_reaches hrecords hq

/-- Two schemas of one name, in which two tables, two columns and two keys of one name are listed.
The primary key is declared as enforced, and the keys that declare it are not.  A foreign key refers
to a table without keys. -/
def Listing.twins : Listing :=
  let id : ColumnEntry := { name := "id", dataType := { name := "int" } }
  let key : KeyEntry := { name := "key", columns := ["id"], enforced := false }
  let first : TableListing :=
    { name := "t"
      columns := [id, { id with comment := "again" }]
      uniqueKeys := [key, { key with columns := ["id", "id"] }, key]
      primaryKey := some { key with enforced := true }
      foreignKeys :=
        [⟨"fk", ["id"], true, ⟨⟨"", "s", "t"⟩, ["id"]⟩⟩,
         ⟨"lost", ["id"], true, ⟨⟨"", "s", "x"⟩, ["id"]⟩⟩] }
  let schema : SchemaListing :=
    { name := "s"
      tables := [first, { name := "t", comment := "again" }, { name := "x" }]
      sequences := [{ name := "q", dataType := { name := "int" }, live := true }] }
  .ofSchemas [schema, { name := "s", comment := "again" }]

/-- The twins behind two filters, one of which hides the table without keys. -/
def Source.twins : Source Unit :=
  Listing.twins.source.filteredAll [{ schemas := ["s"] }, { excludedTables := ["s.x"] }]

/-- What the filters leave of the answers. -/
def Answers.twins : Answers :=
  [{ schemas := ["s"] }, { excludedTables := ["s.x"] }].foldl Answers.filtered Listing.twins.answer

theorem Source.answersAs_twins :
  Source.twins.AnswersAs Answers.twins
  := by
  apply Source.AnswersAs.filteredAll
  apply Source.answersAs_ofAnswers

/-- The primary key of the twins is kept without being enforced, their sequence is not live, and the
table that is hidden is a fault. -/
theorem answer_detached_twins :
  ∃ s, (detach Source.twins ()).1.result = .ok s
    ∧ s.answer (.primaryKey ⟨"", "s", "t"⟩) = .ok (some ⟨"key", ["id"], false⟩)
    ∧ s.answer (.sequences ⟨"", "s"⟩) = .ok [{ name := "q", dataType := { name := "int" } }]
    ∧ ∃ context problem,
      s.answer (.columns ⟨"", "s", "x"⟩) = .error (.sourceAccess context problem)
  := by
  obtain ⟨s, hs⟩ : ∃ s, (detach Source.twins ()).1.result = .ok s :=
    isOk_iff.mp (by decide +kernel)
  obtain ⟨hcalls, hkept, hfault⟩ := answer_detached Source.twins () Source.answersAs_twins hs
  use s, hs
  constructor
  · obtain ⟨x, hx, hanswer⟩ :=
      hkept (.primaryKey ⟨"", "s", "t"⟩) ((hcalls _).mp (by decide +kernel))
    rw [hanswer, ← hx]
    decide +kernel
  constructor
  · obtain ⟨x, hx, hanswer⟩ :=
      hkept (.sequences ⟨"", "s"⟩) ((hcalls _).mp (by decide +kernel))
    rw [hanswer, ← hx]
    decide +kernel
  · apply hfault _ ((hcalls _).not.mp (by decide +kernel))

end DetachedSchema
