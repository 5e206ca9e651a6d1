import DetachedSchema.Proofs.Detach.Overheard
import DetachedSchema.Proofs.Detach.Told
import Mathlib.Algebra.BigOperators.Group.List.Basic
import Mathlib.Algebra.Ring.Nat

/-!
# Nothing is lost without a word

Some of what a source declares is not in the snapshot: a table or a foreign key that a filter
hides, a primary key that is none of the unique keys, and a column with generated values that is not
the first of its table.  Each time an event tells so.  What is declared of the schemas and tables
that all filters keep is counted by what the snapshot holds together with these events.
-/

namespace DetachedSchema

/-- What is counted. -/
inductive Kind
  | primaryKey
  | foreignKey
  | table
  /-- A column whose values the database generates. -/
  | identity

/-- Whether an event tells that one of a kind is lost. -/
def Kind.lostBy : Kind → Event → Bool
  | .primaryKey, event => event.severity = .warning
  | .foreignKey, .hiddenForeignKey .. => true
  | .table, .hiddenTable .. => true
  | .identity, .extraIdentity .. => true
  | _, _ => false

/-- How many of a kind a snapshot holds. -/
def Snapshot.held (s : Snapshot) : Kind → Nat
  | .primaryKey => s.stats.primaryKeys
  | .foreignKey => s.stats.foreignKeys
  | .table => s.stats.tables
  | .identity => s.tables.countP (·.identity.isSome)

/-! ### What a source declares -/

/-- What is listed; nothing is when there is no answer. -/
def listed {α : Type} (answer : Except Fault (List α)) : List α := answer.toOption.getD []

theorem listed_of_ok {α : Type} {answer : Except Fault (List α)} {l : List α}
    (h : answer = .ok l) :
  listed answer = l
  := by
  rw [h]
  rfl

namespace Answers

/-- The paths of the schemas that are listed in a catalog and that all filters keep. -/
def schemaPathsIn (a : Answers) (filters : List Filter) (catalog : String) : List SchemaPath :=
  ((listed (a (.schemas catalog))).map fun s => ⟨catalog, s.name⟩).filter fun p =>
    filters.all (·.keepsSchema p)

/-- The paths of the tables that are listed in a schema and that all filters keep. -/
def tablePathsIn (a : Answers) (filters : List Filter) (p : SchemaPath) : List TablePath :=
  ((listed (a (.tables p))).map fun t => p.table t.name).filter fun p =>
    filters.all (·.keepsTable p)

/-- The paths of the schemas that all filters keep, as often as they are listed. -/
def schemaPaths (a : Answers) (filters : List Filter) : List SchemaPath :=
  (listed (a .catalogs)).flatMap fun c => a.schemaPathsIn filters c.name

/-- The paths of the tables that all filters keep, as often as they are listed. -/
def tablePaths (a : Answers) (filters : List Filter) : List TablePath :=
  (a.schemaPaths filters).flatMap (a.tablePathsIn filters)

/-- How many of a kind are declared of the schemas and tables that all filters keep. -/
def declared (a : Answers) (filters : List Filter) : Kind → Nat
  | .primaryKey =>
    countAll (fun p => listed ((a (.primaryKey p)).map Option.toList)) (a.tablePaths filters)
  | .foreignKey => countAll (fun p => listed (a (.foreignKeys p))) (a.tablePaths filters)
  | .table => countAll (fun p => listed (a (.tables p))) (a.schemaPaths filters)
  | .identity =>
    countAll (fun p => (listed (a (.columns p))).filter (·.dataType.identity))
      (a.tablePaths filters)

end Answers

/-! ### Answers to a question -/

/-- How many of a kind are declared by the answer to a question. -/
def Kind.declaredBy (kind : Kind) : (q : Query) → q.Answer → Nat
  | .tables _, entries => match kind with
    | .table => entries.length
    | _ => 0
  | .columns _, entries => match kind with
    | .identity => (entries.filter (·.dataType.identity)).length
    | _ => 0
  | .primaryKey _, entry => match kind with
    | .primaryKey => entry.toList.length
    | _ => 0
  | .foreignKeys _, entries => match kind with
    | .foreignKey => entries.length
    | _ => 0
  | _, _ => 0

namespace Filter

variable {kind : Kind} {q : Query}

/-- What a filter hides of an answer is told. -/
theorem declaredBy_restrict (f : Filter) (x : q.Answer) :
  kind.declaredBy q x
    = kind.declaredBy q (f.restrict q x) + (f.hidden q x).countP kind.lostBy
  := by
  cases q with
  | tables p =>
    cases kind with
    | table =>
      simp only [Kind.declaredBy, restrict, hidden, List.countP_map, Function.comp_def, Kind.lostBy,
        List.countP_true]
      apply List.length_eq_length_filter_add
    | _ => simp [Kind.declaredBy, hidden, Kind.lostBy, Function.comp_def, Event.severity]
  | foreignKeys p =>
    cases kind with
    | foreignKey =>
      simp only [Kind.declaredBy, restrict, hidden, List.countP_map, Function.comp_def, Kind.lostBy,
        List.countP_true]
      apply List.length_eq_length_filter_add
    | _ => simp [Kind.declaredBy, hidden, Kind.lostBy, Function.comp_def, Event.severity]
  | _ => rfl

theorem declaredBy_restrictAll (filters : List Filter) (x : q.Answer) :
  kind.declaredBy q x
    = kind.declaredBy q (restrictAll filters q x) + (hiddenAll filters q x).countP kind.lostBy
  := by
  induction filters generalizing x with
  | nil => rw [restrictAll_nil, hiddenAll, List.countP_nil, Nat.add_zero]
  | cons f filters ih =>
    rw [restrictAll_cons, hiddenAll, List.countP_append, declaredBy_restrict f, ih]
    omega

end Filter

namespace Answers

variable {a : Answers} {kind : Kind}

/-- How many of a kind are declared when a question is answered. -/
def declares (a : Answers) (kind : Kind) (q : Query) : Nat :=
  match a q with
  | .ok x => kind.declaredBy q x
  | .error _ => 0

theorem declares_of_ok {q : Query} {x : q.Answer} (h : a q = .ok x) :
  a.declares kind q = kind.declaredBy q x
  := by rw [declares, h]

/-- Most questions are about nothing that is counted. -/
theorem declares_idle {q : Query} (hq : ∀ x, kind.declaredBy q x = 0) :
  a.declares kind q = 0
  := by
  rw [declares]
  cases a q with
  | ok x => exact hq x
  | error fault => rfl

/-- What filters hide of what is answered is told. -/
theorem declares_filteredAll (a : Answers) (filters : List Filter) (q : Query) :
  a.declares kind q
    = (a.filteredAll filters).declares kind q + (a.hiddenBy filters q).countP kind.lostBy
  := by
  cases hq : a q with
  | ok x =>
    rw [declares_of_ok hq, declares_of_ok (filteredAll_of_ok hq), hiddenBy, hq]
    apply Filter.declaredBy_restrictAll
  | error fault =>
    rw [declares, hq, declares, filteredAll_of_error hq, hiddenBy, hq]
    rfl

end Answers

/-! ### Schemas and tables with their paths -/

/-- The schemas of a listing with their paths. -/
def Listing.schemasAt (l : Listing) : List (SchemaPath × SchemaListing) :=
  l.catalogs.flatMap fun c => c.schemas.map fun s => (⟨c.name, s.name⟩, s)

/-- The tables of a schema with their paths. -/
def SchemaListing.tablesAt (s : SchemaListing) (path : SchemaPath) :
    List (TablePath × TableListing) :=
  s.tables.map fun t => (path.table t.name, t)

/-- The tables of a listing with their paths. -/
def Listing.tablesAt (l : Listing) : List (TablePath × TableListing) :=
  l.schemasAt.flatMap fun x => x.2.tablesAt x.1

theorem Listing.Records.schemasAt {l : Listing} {A : Possible} (h : l.Records A)
    {x : SchemaPath × SchemaListing} (hx : x ∈ l.schemasAt) :
  x.2.Records A x.1
  := by
  obtain ⟨c, hc, hx⟩ := List.mem_flatMap.mp hx
  obtain ⟨s, hs, rfl⟩ := List.mem_map.mp hx
  apply (h.below c hc).below s hs

theorem Listing.Records.tablesAt {l : Listing} {A : Possible} (h : l.Records A)
    {x : TablePath × TableListing} (hx : x ∈ l.tablesAt) :
  x.2.Records A x.1
  := by
  obtain ⟨s, hs, hx⟩ := List.mem_flatMap.mp hx
  obtain ⟨t, ht, rfl⟩ := List.mem_map.mp hx
  apply (h.schemasAt hs).below t ht

theorem SchemaListing.map_placed (s : SchemaListing) (id : SchemaId) (path : SchemaPath) :
  (s.placed id path).map (fun p => (p.path, p.listing)) = s.tablesAt path
  := by
  rw [tablesAt, placed, List.map_map]
  conv_rhs => rw [← List.zipIdx_map_fst 0 s.tables, List.map_map]
  rfl

theorem CatalogListing.map_placed (c : CatalogListing) (id : CatalogId) :
  (c.placed id).map (fun p => (p.path, p.listing))
    = c.schemas.flatMap fun s => s.tablesAt ⟨c.name, s.name⟩
  := by
  rw [placed, List.map_flatMap]
  simp only [SchemaListing.map_placed]
  apply flatMap_fst_zipIdx (f := fun s : SchemaListing => s.tablesAt ⟨c.name, s.name⟩)

/-- The tables with their paths stand in the order of a walk. -/
theorem Listing.map_placed (l : Listing) :
  l.placed.map (fun p => (p.path, p.listing)) = l.tablesAt
  := by
  rw [placed, List.map_flatMap, tablesAt, schemasAt, List.flatMap_assoc]
  simp only [CatalogListing.map_placed, List.flatMap_map]
  apply flatMap_fst_zipIdx (f := fun c : CatalogListing =>
    c.schemas.flatMap fun s => s.tablesAt ⟨c.name, s.name⟩)

/-! ### Sums -/

theorem sum_map_flatMap {α β : Type} {l : List α} {f : α → List β} {w : β → Nat} :
  ((l.flatMap f).map w).sum = (l.map fun x => ((f x).map w).sum).sum
  := by
  rw [List.map_flatMap, List.flatMap_def, List.sum_flatten, List.map_map]
  rfl

theorem countP_isSome {α β : Type} {l : List α} {f : α → Option β} :
  l.countP (fun x => (f x).isSome) = (l.map fun x => (f x).toList.length).sum
  := by
  rw [← List.length_filterMap_eq_countP, List.filterMap_eq_flatMap_toList, List.length_flatMap]

section

variable {a : Answers} {kind : Kind}

theorem TablePath.sum_questions (path : TablePath) :
  (path.questions.map (a.declares kind)).sum
    = a.declares kind (.columns path) + a.declares kind (.primaryKey path)
      + a.declares kind (.foreignKeys path)
  := by
  simp only [questions, List.map_cons, List.map_nil, List.sum_cons, List.sum_nil]
  rw [a.declares_idle (q := .indexes path) fun _ => rfl,
    a.declares_idle (q := .uniqueKeys path) fun _ => rfl,
    a.declares_idle (q := .checks path) fun _ => rfl]
  omega

theorem SchemaListing.sum_questions (s : SchemaListing) (path : SchemaPath) :
  ((s.questions path).map (a.declares kind)).sum
    = a.declares kind (.tables path)
      + ((s.tablesAt path).map fun x => (x.1.questions.map (a.declares kind)).sum).sum
  := by
  simp only [questions, tablesAt, List.map_append, List.map_cons, List.map_nil, List.sum_append,
    List.sum_cons, List.sum_nil, sum_map_flatMap, List.map_map, Function.comp_def]
  rw [a.declares_idle (q := .domains path) fun _ => rfl,
    a.declares_idle (q := .sequences path) fun _ => rfl,
    a.declares_idle (q := .userTypes path) fun _ => rfl]
  omega

theorem CatalogListing.sum_questions (c : CatalogListing) :
  (c.questions.map (a.declares kind)).sum
    = (c.schemas.map fun s => ((s.questions ⟨c.name, s.name⟩).map (a.declares kind)).sum).sum
  := by
  rw [questions, List.map_cons, List.sum_cons, sum_map_flatMap,
    a.declares_idle (q := .schemas c.name) fun _ => rfl, Nat.zero_add]

/-- What is declared when all questions about a listing are answered is declared by the lists of
tables and by the tables. -/
theorem Listing.sum_questions (l : Listing) :
  (l.questions.map (a.declares kind)).sum
    = (l.schemasAt.map fun x => a.declares kind (.tables x.1)).sum
      + (l.tablesAt.map fun x => (x.1.questions.map (a.declares kind)).sum).sum
  := by
  have hschemas : (l.questions.map (a.declares kind)).sum
      = (l.schemasAt.map fun x => ((x.2.questions x.1).map (a.declares kind)).sum).sum := by
    rw [questions, List.map_cons, List.sum_cons, sum_map_flatMap, schemasAt, sum_map_flatMap,
      a.declares_idle (q := .catalogs) fun _ => rfl, Nat.zero_add]
    simp only [CatalogListing.sum_questions, List.map_map]
    rfl
  rw [hschemas, tablesAt, sum_map_flatMap, ← List.sum_map_add]
  simp only [SchemaListing.sum_questions]

theorem SchemaListing.countP_told (s : SchemaListing) (path : SchemaPath) :
  (s.told path).countP kind.lostBy
    = ((s.tablesAt path).map fun x => (x.2.told x.1).countP kind.lostBy).sum
  := by
  have hschema : kind.lostBy (.copyingSchema path) = false := by cases kind <;> rfl
  rw [told, List.countP_cons_of_neg (by simp [hschema]), List.countP_flatMap, tablesAt,
    List.map_map]
  rfl

/-- The events of a walk that count are those about tables. -/
theorem Listing.countP_told (l : Listing) :
  l.told.countP kind.lostBy = (l.tablesAt.map fun x => (x.2.told x.1).countP kind.lostBy).sum
  := by
  have hschemas : l.told = l.schemasAt.flatMap fun x => x.2.told x.1 := by
    simp only [told, schemasAt, List.flatMap_assoc, List.flatMap_map]
    rfl
  rw [hschemas, List.countP_flatMap, tablesAt, sum_map_flatMap]
  simp only [Function.comp_def, SchemaListing.countP_told]

end

/-! ### What is kept -/

/-- How many of a kind the copy of a table has. -/
def TableListing.held (t : TableListing) : Kind → Nat
  | .primaryKey => t.primaryKeyPlace.toList.length
  | .foreignKey => t.foreignKeys.length
  | .table => 0
  | .identity => (t.columns.findIdx? (·.dataType.identity)).toList.length

/-- Of the columns with generated values the first one is kept, and the others are told. -/
theorem length_filter_identity (columns : List ColumnEntry) :
  (columns.filter (·.dataType.identity)).length
    = (columns.findIdx? (·.dataType.identity)).toList.length + (Walk.extraIdentities columns).length
  := by
  rw [Walk.extraIdentities, List.length_map, List.length_drop]
  cases hfirst : columns.findIdx? (·.dataType.identity) with
  | none =>
    have hnone : columns.filter (·.dataType.identity) = [] := by
      rw [List.filter_eq_nil_iff]
      simpa using List.findIdx?_eq_none_iff.mp hfirst
    rw [hnone]
    rfl
  | some i =>
    have hany : columns.any (·.dataType.identity) := by
      rw [← List.findIdx?_isSome, hfirst]
      rfl
    have hpos := List.length_filter_pos_iff.mpr (List.any_eq_true.mp hany)
    simp only [Option.toList_some, List.length_singleton]
    omega

/-- A primary key is kept, or it is told that it is not. -/
theorem TableListing.length_primaryKey (t : TableListing) (path : TablePath) :
  t.primaryKey.toList.length
    = t.primaryKeyPlace.toList.length + (t.strayKeys path).length
  := by
  rw [strayKeys, primaryKeyPlace]
  cases t.primaryKey with
  | none => rfl
  | some primary =>
    rw [Option.bind_some]
    cases t.uniqueKeys.findIdx? (·.sameKey primary) <;> rfl

section

variable {a : Answers} {kind : Kind}

theorem TableListing.countP_strayKeys (t : TableListing) (path : TablePath) :
  (t.strayKeys path).countP kind.lostBy = match kind with
    | .primaryKey => (t.strayKeys path).length
    | _ => 0
  := by
  rw [strayKeys]
  cases t.primaryKey with
  | none => cases kind <;> rfl
  | some primary =>
    cases t.primaryKeyPlace with
    | none => cases kind <;> rfl
    | some i => cases kind <;> rfl

/-- What is declared about a table is copied, or it is told that it is not. -/
theorem TableListing.Records.sum_questions {t : TableListing} {path : TablePath}
    (h : t.Records a.given path) :
  (path.questions.map (a.declares kind)).sum
    = t.held kind + (t.told path).countP kind.lostBy
  := by
  rw [TablePath.sum_questions, Answers.declares_of_ok h.columns,
    Answers.declares_of_ok h.primaryKey, Answers.declares_of_ok h.foreignKeys, told,
    List.countP_append, List.countP_append, countP_strayKeys]
  cases kind with
  | primaryKey =>
    simp [Kind.declaredBy, held, Kind.lostBy, Event.severity, Function.comp_def,
      t.length_primaryKey path]
  | foreignKey => simp [Kind.declaredBy, held, Kind.lostBy, Function.comp_def]
  | table => simp [Kind.declaredBy, held, Kind.lostBy, Function.comp_def]
  | identity =>
    simp [Kind.declaredBy, held, Kind.lostBy, length_filter_identity, Function.comp_def]

end

/-! ### Paths that all filters keep -/

namespace Answers

variable {a : Answers} {filters : List Filter} {l : Listing}

theorem filteredAll_eq_ok {q : Query} {y : q.Answer} :
  a.filteredAll filters q = .ok y ↔ ∃ x, a q = .ok x ∧ Filter.restrictAll filters q x = y
  := by
  rw [filteredAll]
  cases a q with
  | ok x => simp [Except.map]
  | error fault => simp [Except.map]

section

variable {p : TablePath}

theorem length_listed_primaryKey :
  (listed ((a (.primaryKey p)).map Option.toList)).length
    = (p.questions.map (a.declares .primaryKey)).sum
  := by
  rw [p.sum_questions, declares_idle (q := .columns p) fun _ => rfl,
    declares_idle (q := .foreignKeys p) fun _ => rfl, declares]
  cases a (.primaryKey p) with
  | ok x => simp [Except.map, Kind.declaredBy, listed_of_ok rfl]
  | error fault => rfl

theorem length_listed_foreignKeys :
  (listed (a (.foreignKeys p))).length = (p.questions.map (a.declares .foreignKey)).sum
  := by
  rw [p.sum_questions, declares_idle (q := .columns p) fun _ => rfl,
    declares_idle (q := .primaryKey p) fun _ => rfl, declares]
  cases a (.foreignKeys p) with
  | ok x => simp [Kind.declaredBy, listed_of_ok rfl]
  | error fault => rfl

theorem length_listed_identity :
  ((listed (a (.columns p))).filter (·.dataType.identity)).length
    = (p.questions.map (a.declares .identity)).sum
  := by
  rw [p.sum_questions, declares_idle (q := .primaryKey p) fun _ => rfl,
    declares_idle (q := .foreignKeys p) fun _ => rfl, declares]
  cases a (.columns p) with
  | ok x => simp [Kind.declaredBy, listed_of_ok rfl]
  | error fault => rfl

theorem length_listed_tables {p : SchemaPath} :
  (listed (a (.tables p))).length = a.declares .table (.tables p)
  := by
  rw [declares]
  cases a (.tables p) with
  | ok x => rfl
  | error fault => rfl

end

/-- A schema is kept only when its catalog is. -/
theorem schemaPathsIn_eq_nil {catalog : String}
    (h : ¬ filters.all (·.keepsCatalog catalog) = true) :
  a.schemaPathsIn filters catalog = []
  := by
  simp only [schemaPathsIn, List.filter_eq_nil_iff, List.forall_mem_map]
  intro s _ hkept
  apply h
  rw [List.all_eq_true] at hkept ⊢
  intro f hf
  exact (Bool.and_eq_true_iff.mp (hkept f hf)).1

theorem schemaPathsIn_eq {c : CatalogListing} (h : c.Records (a.filteredAll filters).given) :
  a.schemaPathsIn filters c.name = c.schemas.map fun s => ⟨c.name, s.name⟩
  := by
  obtain ⟨schemas, hschemas, hkept⟩ := filteredAll_eq_ok.mp h.schemas
  have hkept : (schemas.filter fun e => filters.all (·.keepsSchema ⟨c.name, e.name⟩))
      = c.schemas.map SchemaListing.entry := hkept
  rw [schemaPathsIn, listed_of_ok hschemas, List.filter_map]
  apply (congrArg (List.map _) hkept).trans
  rw [List.map_map]
  rfl

theorem tablePathsIn_eq {s : SchemaListing} {path : SchemaPath}
    (h : s.Records (a.filteredAll filters).given path) :
  a.tablePathsIn filters path = s.tables.map fun t => path.table t.name
  := by
  obtain ⟨tables, htables, hkept⟩ := filteredAll_eq_ok.mp h.tables
  have hkept : (tables.filter fun e => filters.all (·.keepsTable (path.table e.name)))
      = s.tables.map TableListing.entry := hkept
  rw [tablePathsIn, listed_of_ok htables, List.filter_map]
  apply (congrArg (List.map _) hkept).trans
  rw [List.map_map]
  rfl

variable (h : l.Records (a.filteredAll filters).given)

include h

/-- The schemas that are listed and that all filters keep are those of the listing of what is
left. -/
theorem schemaPaths_eq :
  a.schemaPaths filters = l.schemasAt.map Prod.fst
  := by
  obtain ⟨catalogs, hcatalogs, hkept⟩ := filteredAll_eq_ok.mp h.catalogs
  have hkept : (catalogs.filter fun e => filters.all (·.keepsCatalog e.name))
      = l.catalogs.map CatalogListing.entry := hkept
  have hall : (catalogs.filter fun e => filters.all (·.keepsCatalog e.name)).flatMap
        (fun e => a.schemaPathsIn filters e.name)
      = catalogs.flatMap fun e => a.schemaPathsIn filters e.name := by
    apply flatMap_filter_of_eq_nil
    intro e _ he
    apply schemaPathsIn_eq_nil he
  rw [schemaPaths, listed_of_ok hcatalogs, ← hall, hkept, List.flatMap_map, Listing.schemasAt,
    List.map_flatMap]
  apply List.flatMap_congr
  intro c hc
  rw [List.map_map]
  apply schemaPathsIn_eq (h.below c hc)

/-- The tables that are listed and that all filters keep are those of the listing of what is
left. -/
theorem tablePaths_eq :
  a.tablePaths filters = l.tablesAt.map Prod.fst
  := by
  rw [tablePaths, schemaPaths_eq h, List.flatMap_map, Listing.tablesAt, List.map_flatMap]
  apply List.flatMap_congr
  rintro ⟨path, s⟩ hs
  rw [SchemaListing.tablesAt, List.map_map]
  apply tablePathsIn_eq (h.schemasAt hs)

/-- What the lists of tables do not declare is declared table by table. -/
theorem countAll_tablePaths {α : Type} {kind : Kind} {part : TablePath → List α}
    (hidle : ∀ p, a.declares kind (.tables p) = 0)
    (hpart : ∀ p, (part p).length = (p.questions.map (a.declares kind)).sum) :
  countAll part (a.tablePaths filters) = (l.questions.map (a.declares kind)).sum
  := by
  rw [l.sum_questions, countAll, List.length_flatMap, tablePaths_eq h, List.map_map]
  simp only [hidle, List.sum_map_zero, Nat.zero_add, Function.comp_def, hpart]

/-- The tables are declared by the lists of tables. -/
theorem countAll_schemaPaths :
  countAll (fun p => listed (a (.tables p))) (a.schemaPaths filters)
    = (l.questions.map (a.declares .table)).sum
  := by
  have hidle : ∀ p : TablePath, (p.questions.map (a.declares .table)).sum = 0 := by
    intro p
    rw [p.sum_questions, declares_idle (q := .columns p) fun _ => rfl,
      declares_idle (q := .primaryKey p) fun _ => rfl,
      declares_idle (q := .foreignKeys p) fun _ => rfl]
  rw [l.sum_questions, countAll, List.length_flatMap, schemaPaths_eq h, List.map_map]
  simp only [hidle, List.sum_map_zero, Nat.add_zero, Function.comp_def, length_listed_tables]

/-- What is declared of the schemas and tables that all filters keep is declared by the answers to
the questions about the listing of what is left. -/
theorem declared_eq (kind : Kind) :
  a.declared filters kind = (l.questions.map (a.declares kind)).sum
  := by
  cases kind with
  | primaryKey =>
    apply countAll_tablePaths h
    · exact fun _ => declares_idle fun _ => rfl
    · exact fun _ => length_listed_primaryKey
  | foreignKey =>
    apply countAll_tablePaths h
    · exact fun _ => declares_idle fun _ => rfl
    · exact fun _ => length_listed_foreignKeys
  | table => exact countAll_schemaPaths h
  | identity =>
    apply countAll_tablePaths h
    · exact fun _ => declares_idle fun _ => rfl
    · exact fun _ => length_listed_identity

end Answers

/-! ### What a snapshot holds -/

namespace Listing

/-- What is counted table by table is counted by the tables with their paths. -/
theorem sum_placed (l : Listing) (w : TableListing → Nat) :
  (l.placed.map fun p => w p.listing).sum = (l.tablesAt.map fun x => w x.2).sum
  := by
  rw [← l.map_placed, List.map_map]
  rfl

theorem length_placed_eq (l : Listing) :
  l.placed.length = (l.schemasAt.map fun x => x.2.tables.length).sum
  := by
  rw [← List.length_map (f := fun p : PlacedTable => (p.path, p.listing)), l.map_placed, tablesAt,
    List.length_flatMap]
  simp only [SchemaListing.tablesAt, List.length_map]

/-- The snapshot holds the tables that are listed and what their copies have. -/
theorem held_snapshot {a : Answers} {l : Listing} (h : l.Records a.given) (kind : Kind) :
  l.snapshot.held kind
    = (l.schemasAt.map fun x => a.declares kind (.tables x.1)).sum
      + (l.tablesAt.map fun x => x.2.held kind).sum
  := by
  rw [← l.sum_placed (·.held kind)]
  have htables : (l.schemasAt.map fun x => a.declares kind (.tables x.1))
      = l.schemasAt.map fun x =>
        kind.declaredBy (.tables x.1) (x.2.tables.map TableListing.entry) := by
    apply List.map_congr_left
    intro x hx
    apply Answers.declares_of_ok (h.schemasAt hx).tables
  rw [htables]
  cases kind with
  | primaryKey =>
    simp only [Snapshot.held, Snapshot.stats, tables_snapshot, List.countP_map, Kind.declaredBy,
      List.sum_map_zero, Nat.zero_add]
    apply countP_isSome (f := fun p : PlacedTable => p.listing.primaryKeyPlace)
  | foreignKey =>
    simp [Snapshot.held, Snapshot.stats, countAll, tables_snapshot, List.length_flatMap,
      Kind.declaredBy, TableListing.held, TableListing.table, TableListing.draft, Function.comp_def]
  | table =>
    simp [Snapshot.held, Snapshot.stats, tables_snapshot, Kind.declaredBy, TableListing.held,
      length_placed_eq]
  | identity =>
    simp only [Snapshot.held, tables_snapshot, List.countP_map, Kind.declaredBy, List.sum_map_zero,
      Nat.zero_add, Function.comp_def, TableListing.table, TableListing.draft, Walk.copyIdentity,
      Option.isSome_map]
    apply countP_isSome
      (f := fun p : PlacedTable => p.listing.columns.findIdx? (·.dataType.identity))

end Listing

/-- The questions about a listing are answered with what its snapshot holds and with what the walk
tells to be lost. -/
theorem Listing.Records.sum_questions {a : Answers} {l : Listing} (h : l.Records a.given)
    (kind : Kind) :
  (l.questions.map (a.declares kind)).sum = l.snapshot.held kind + l.told.countP kind.lostBy
  := by
  have htables : (l.tablesAt.map fun x => (x.1.questions.map (a.declares kind)).sum)
      = l.tablesAt.map fun x => x.2.held kind + (x.2.told x.1).countP kind.lostBy := by
    apply List.map_congr_left
    intro x hx
    apply (h.tablesAt hx).sum_questions
  rw [Listing.sum_questions, htables, List.sum_map_add, Listing.held_snapshot h, l.countP_told]
  omega

/-- The events of the script that count are those of the walk. -/
theorem Detach.countP_told_script {a : Answers} {name : String} {l : Listing}
    (hA : l.Records a.given) (hnames : l.NamesColumns) (hresolves : l.Resolves) (kind : Kind) :
  ((Detach.script name).told a).countP kind.lostBy = l.told.countP kind.lostBy
  := by
  obtain ⟨keys, hkeys⟩ := Detach.told_script name hA hnames hresolves
  rw [hkeys]
  simp only [List.cons_append, List.countP_cons, List.countP_append, List.countP_map,
    List.countP_nil]
  cases kind with
  | primaryKey => simp [Kind.lostBy, Event.severity, Detach.resolvedEvent, Function.comp_def]
  | _ => simp [Kind.lostBy, Detach.resolvedEvent, Function.comp_def]

/-! ### Nothing is lost without a word -/

theorem Source.name_filteredAll {σ : Type} (source : Source σ) (filters : List Filter) :
  (source.filteredAll filters).name = source.name
  := by
  induction filters generalizing source with
  | nil => rfl
  | cons f filters ih => exact ih (source.filtered f)

/-- What is declared of the schemas and tables that all filters keep is in the snapshot, or an event
tells that it is lost: so it is with primary keys, with foreign keys, with tables, and with columns
whose values the database generates.  Events that the source itself tells of that kind are not about
what it declares; they are counted apart, and there are none when the source tells nothing. -/
theorem detach_conserves {σ : Type} (source : Source σ) (st : σ) {a : Answers}
    (h : source.AnswersAs a) (filters : List Filter) {s : Snapshot}
    (hs : (detach (source.filteredAll filters) st).1.result = .ok s) (kind : Kind) :
  let events := (detach (source.filteredAll filters) st).1.events
  let own := (detach (source.overheard.filteredAll filters) (st, [])).2.2
  a.declared filters kind + own.countP kind.lostBy = s.held kind + events.countP kind.lostBy
  ∧ ((∀ (q : Query) (st : σ), (source.reply q st).1.events = []) →
    a.declared filters kind = s.held kind + events.countP kind.lostBy)
  := by
  intro events own
  have hanswers := Source.answersAs_filteredAll h filters
  obtain ⟨l, hrecords, hnames, hresolves, rfl⟩ := (detach_eq_ok_iff hanswers).mp hs
  have hevents : events
      = ((Detach.script source.name).run (source.filteredAll filters) st).1.events := by
    simp only [events, detach, Source.name_filteredAll]
  have hown : own = ((Detach.script source.name).run (source.overheard.filteredAll filters)
      (st, [])).2.2 := by
    simp only [own, detach, Source.name_filteredAll]
    rfl
  have hperm := Script.events_run_overheard h filters (Detach.script source.name) st []
  have hcount : events.countP kind.lostBy = own.countP kind.lostBy + (l.told.countP kind.lostBy
      + (l.questions.flatMap (a.hiddenBy filters)).countP kind.lostBy) := by
    simp only [List.nil_append, Script.run_overheard, ← hevents, ← hown,
      Detach.asked_script hrecords hnames] at hperm
    rw [hperm.countP_eq, List.countP_append, List.countP_append,
      Detach.countP_told_script hrecords hnames hresolves]
  have hdeclared : a.declared filters kind
      = l.snapshot.held kind + l.told.countP kind.lostBy
        + (l.questions.flatMap (a.hiddenBy filters)).countP kind.lostBy := by
    rw [Answers.declared_eq hrecords, ← hrecords.sum_questions, List.countP_flatMap,
      ← List.sum_map_add]
    apply congrArg
    apply List.map_congr_left
    intro q _
    apply a.declares_filteredAll
  constructor
  · omega
  · intro hsilent
    have hnothing : own = [] := hown.trans (Script.heard_of_silent hsilent _ st [])
    rw [hnothing, List.countP_nil] at hcount
    omega

/-- Staff with ids and numbers that the database generates, whose primary key is none of the unique
keys and whose foreign keys refer to a log and to the teams.  Another schema has teams of its
own. -/
def Listing.payroll : Listing :=
  let id : ColumnEntry := { name := "id", dataType := { name := "int", identity := true } }
  let number : ColumnEntry := { id with name := "number" }
  let key : KeyEntry := { name := "pk", columns := ["id"] }
  let log : TableListing := { name := "log", columns := [id], uniqueKeys := [key] }
  let teams : TableListing :=
    { name := "teams", columns := [id], uniqueKeys := [key], primaryKey := some key }
  let staff : TableListing :=
    { name := "staff"
      columns := [id, number]
      uniqueKeys := [key]
      primaryKey := some { key with columns := ["number"] }
      foreignKeys :=
        [⟨"fk_log", ["id"], true, ⟨⟨"", "s", "log"⟩, ["id"]⟩⟩,
         ⟨"fk_team", ["id"], true, ⟨⟨"", "s", "teams"⟩, ["id"]⟩⟩] }
  .ofSchemas [{ name := "s", tables := [log, teams, staff] }, { name := "old", tables := [teams] }]

/-- Behind two filters one of each kind is lost, and one event tells so. -/
theorem detach_conserves_payroll :
  let filters : List Filter := [{ schemas := ["s"] }, .withoutLog]
  let declared := Answers.declared Listing.payroll.answer filters
  let run := (detach (Listing.payroll.source.filteredAll filters) ()).1
  ∃ s, run.result = .ok s
    ∧ (∀ kind : Kind, declared kind = s.held kind + run.events.countP kind.lostBy)
    ∧ (declared .primaryKey, s.held .primaryKey) = (2, 1)
    ∧ (declared .foreignKey, s.held .foreignKey) = (2, 1)
    ∧ (declared .table, s.held .table) = (3, 2)
    ∧ (declared .identity, s.held .identity) = (3, 2)
  := by
  intro filters declared run
  have hanswers : Listing.payroll.source.AnswersAs Listing.payroll.answer :=
    Source.answersAs_ofAnswers _ _
  let s := (Listing.payroll.snapshot.filtered { schemas := ["s"] }).filtered .withoutLog
  have hs : run.result = .ok s := by
    simp only [run]
    rw [detach, Script.result_run (Source.answersAs_filteredAll hanswers filters)]
    decide
  have hconserves : ∀ kind : Kind,
      declared kind = s.held kind + run.events.countP kind.lostBy := by
    intro kind
    exact (detach_conserves Listing.payroll.source () hanswers filters hs kind).2 fun _ _ => rfl
  exact ⟨s, hs, hconserves, by decide⟩

end DetachedSchema
