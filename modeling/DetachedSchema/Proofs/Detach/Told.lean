import DetachedSchema.Detach
import DetachedSchema.Proofs.Detach.Resolve
import DetachedSchema.Proofs.Script.Told

/-!
# What detaching tells

A walk tells, table by table, which columns with generated values it passes over, whether the
primary key is none of the unique keys, and how much it has copied; the second phase tells what
every foreign key refers to.  The events of the walk are those about the listing that records the
answers.
-/

namespace DetachedSchema

/-! ### The events about a listing -/

namespace TableListing

/-- The event that tells that the primary key is none of the unique keys, when that is so. -/
def strayKeys (t : TableListing) (path : TablePath) : List Event :=
  match t.primaryKey, t.primaryKeyPlace with
  | some primary, none => [.strayPrimaryKey path primary.name]
  | _, _ => []

/-- The events about a table that is copied. -/
def told (t : TableListing) (path : TablePath) : List Event :=
  (Walk.extraIdentities t.columns).map (.extraIdentity path) ++ t.strayKeys path
    ++ [.copiedTable path t.columns.length t.uniqueKeys.length t.indexes.length
      t.foreignKeys.length]

end TableListing

/-- The events about a schema and its tables. -/
def SchemaListing.told (s : SchemaListing) (path : SchemaPath) : List Event :=
  .copyingSchema path :: s.tables.flatMap fun t => t.told (path.table t.name)

/-- The events about the schemas of a catalog. -/
def CatalogListing.told (c : CatalogListing) : List Event :=
  c.schemas.flatMap fun s => s.told ⟨c.name, s.name⟩

/-- The events about everything in a listing. -/
def Listing.told (l : Listing) : List Event := l.catalogs.flatMap CatalogListing.told

/-! ### The events of a walk -/

namespace Walk

variable {a : Answers}

theorem told_tellStrayKey {t : TableListing} {path : TablePath} :
  (tellStrayKey path t.primaryKey t.primaryKeyPlace).told a = t.strayKeys path
  := by
  rw [TableListing.strayKeys]
  cases t.primaryKey with
  | none => rfl
  | some primary => cases t.primaryKeyPlace <;> rfl

/-- A table that can be copied is told about. -/
theorem told_copyTable {t : TableListing} {id : TableId} {path : TablePath}
    (hA : t.Records a.given path) (hnames : t.NamesColumns) :
  (copyTable id path t.entry).told a = t.told path
  := by
  have hidentities : ((extraIdentities t.columns).forM fun name =>
      Script.log (.extraIdentity path name)).outcome a = .ok () :=
    Script.canEnd_given.mp Script.canEnd_forM_log
  have hplace : (t.primaryKey.bind fun primary => t.uniqueKeys.findIdx? (·.sameKey primary))
      = t.primaryKeyPlace := rfl
  simp only [copyTable, Script.query, Script.bind_eq, Script.pure_eq_done, Script.bind]
  rw [Script.told_ask hA.columns, Script.told_bind_of_ok hidentities, Script.told_forM_log,
    Script.told_ask hA.indexes,
    Script.told_bind_of_ok (Script.outcome_ofExcept.trans (mapM_copyIndex ?_ hnames)),
    Script.told_ofExcept, Script.told_ask hA.uniqueKeys,
    Script.told_bind_of_ok (Script.outcome_ofExcept.trans (mapM_copyKey ?_ hnames)),
    Script.told_ofExcept, Script.told_ask hA.primaryKey, hplace,
    Script.told_bind_of_ok outcome_tellStrayKey, told_tellStrayKey, Script.told_ask hA.foreignKeys,
    Script.told_bind_of_ok (Script.outcome_ofExcept.trans (mapM_copyForeignKey ?_ hnames)),
    Script.told_ofExcept, Script.told_ask hA.checks]
  · simp [TableListing.told, Script.told, Script.log, Script.bind]
  all_goals rfl

theorem told_copyTables {id : SchemaId} {path : SchemaPath} {ts : List TableListing}
    (h : ∀ t ∈ ts, t.Records a.given (path.table t.name) ∧ t.NamesColumns) :
  ((ts.map TableListing.entry).zipIdx.mapM fun x =>
      copyTable (id.table x.2) (path.table x.1.name) x.1).told a
    = ts.flatMap fun t => t.told (path.table t.name)
  := by
  apply Script.told_mapM_zipIdx
  intro t ht i
  exact ⟨⟨_, outcome_copyTable (h t ht)⟩, told_copyTable (h t ht).1 (h t ht).2⟩

theorem told_copySchema {s : SchemaListing} {id : SchemaId} {path : SchemaPath}
    (hA : s.Records a.given path) (hnames : ∀ t ∈ s.tables, t.NamesColumns) :
  (copySchema id path s.entry).told a = s.told path
  := by
  have htables : ∀ t ∈ s.tables, t.Records a.given (path.table t.name) ∧ t.NamesColumns :=
    fun t ht => ⟨hA.below t ht, hnames t ht⟩
  simp only [copySchema, Script.query, Script.bind_eq, Script.pure_eq_done, Script.bind]
  rw [Script.told_bind_of_ok Script.outcome_log, Script.told_log, Script.told_ask hA.domains,
    Script.told_ask hA.tables, Script.told_bind_of_ok (outcome_copyTables htables),
    told_copyTables htables,
    Script.told_ask hA.sequences, Script.told_ask hA.userTypes, Script.told_done, List.append_nil]
  rfl

theorem told_copySchemas {id : CatalogId} {catalog : String} {ss : List SchemaListing}
    (h : ∀ s ∈ ss, s.Records a.given ⟨catalog, s.name⟩ ∧ ∀ t ∈ s.tables, t.NamesColumns) :
  ((ss.map SchemaListing.entry).zipIdx.mapM fun x =>
      copySchema (id.schema x.2) ⟨catalog, x.1.name⟩ x.1).told a
    = ss.flatMap fun s => s.told ⟨catalog, s.name⟩
  := by
  apply Script.told_mapM_zipIdx
  intro s hs i
  exact ⟨⟨_, outcome_copySchema (h s hs)⟩, told_copySchema (h s hs).1 (h s hs).2⟩

theorem told_copyCatalog {c : CatalogListing} {id : CatalogId} (hA : c.Records a.given)
    (hnames : ∀ s ∈ c.schemas, ∀ t ∈ s.tables, t.NamesColumns) :
  (copyCatalog id c.entry).told a = c.told
  := by
  have hschemas : ∀ s ∈ c.schemas,
      s.Records a.given ⟨c.name, s.name⟩ ∧ ∀ t ∈ s.tables, t.NamesColumns :=
    fun s hs => ⟨hA.below s hs, hnames s hs⟩
  simp only [copyCatalog, Script.query, Script.bind_eq, Script.pure_eq_done, Script.bind]
  rw [CatalogListing.entry, Script.told_ask hA.schemas,
    Script.told_bind_of_ok (outcome_copySchemas hschemas), told_copySchemas hschemas,
    Script.told_done, List.append_nil, CatalogListing.told]

/-- A walk tells about everything in the listing that it records. -/
theorem told_copyAll {l : Listing} (hA : l.Records a.given) (hnames : l.NamesColumns) :
  copyAll.told a = l.told
  := by
  have hcatalogs : ∀ c ∈ l.catalogs,
      c.Records a.given ∧ ∀ s ∈ c.schemas, ∀ t ∈ s.tables, t.NamesColumns :=
    fun c hc => ⟨hA.below c hc, hnames c hc⟩
  have htold : ((l.catalogs.map CatalogListing.entry).zipIdx.mapM fun x =>
      copyCatalog ⟨x.2⟩ x.1).told a = l.catalogs.flatMap CatalogListing.told := by
    apply Script.told_mapM_zipIdx
    intro c hc i
    exact ⟨⟨_, outcome_copyCatalog (hcatalogs c hc)⟩,
      told_copyCatalog (hcatalogs c hc).1 (hcatalogs c hc).2⟩
  simp only [copyAll, Script.query, Script.bind_eq, Script.pure_eq_done, Script.bind]
  rw [Script.told_ask hA.catalogs, Script.told_bind, htold, Listing.told]
  split
  · apply List.append_nil
  · apply List.append_nil

end Walk

namespace Detach

variable {a : Answers}

/-- What is told about a foreign key that is resolved. -/
def resolvedEvent (k : PendingKey) : Event := .resolvedKey k.path k.name k.references.table

theorem told_resolve {index : KeyIndex} {k : PendingKey} (hk : k.Resolves index.find?) :
  (resolve index k).told a = [resolvedEvent k]
  := by
  obtain ⟨hsome, hlength⟩ := hk
  obtain ⟨key, hkey⟩ := Option.isSome_iff_exists.mp hsome
  simp only [resolve, hkey, hlength, if_true]
  rfl

/-- The second phase tells how many keys it has indexed and then what each foreign key refers to. -/
theorem told_resolveAll {l : Listing} (hresolves : l.Resolves) :
  ∃ keys, (resolveAll l.draft).told a
    = .indexedKeys keys :: l.draft.pending.map resolvedEvent
  := by
  have hok : ∀ k ∈ l.draft.pending,
      k.Resolves (KeyIndex.ofTables (Snapshot.tables ⟨l.draft.content⟩)).find? := by
    rw [find?_index]
    exact hresolves
  have hkeys : (l.draft.pending.mapM
      (resolve (.ofTables (Snapshot.tables ⟨l.draft.content⟩)))).outcome a = .ok _ :=
    Script.canEnd_given.mp ((Script.canEnd_mapM fun _ _ => canEnd_resolve).mpr ⟨hok, rfl⟩)
  use (KeyIndex.ofTables (Snapshot.tables ⟨l.draft.content⟩)).size
  simp only [resolveAll, Script.bind_eq, Script.pure_eq_done]
  rw [Script.told_bind_of_ok Script.outcome_log, Script.told_log, Script.told_bind_of_ok hkeys,
    Script.told_done, List.append_nil, Script.told_mapM, List.map_eq_flatMap,
    List.flatMap_congr fun k hk => told_resolve (hok k hk)]
  · rfl
  · intro k hk
    exact ⟨_, Script.canEnd_given.mp (canEnd_resolve.mpr ⟨hok k hk, rfl⟩)⟩

/-- Detaching tells about the listing that the walk records and about the foreign keys that are put
aside, and it tells when either phase begins and how much was detached. -/
theorem told_script (name : String) {l : Listing} (hA : l.Records a.given)
    (hnames : l.NamesColumns) (hresolves : l.Resolves) :
  ∃ keys, (script name).told a = .copying name :: l.told
    ++ .resolving l.draft.pending.length :: .indexedKeys keys
    :: l.draft.pending.map resolvedEvent
    ++ [.detached l.snapshot.stats.catalogs l.snapshot.stats.schemas l.snapshot.stats.tables
      l.snapshot.stats.foreignKeys name]
  := by
  obtain ⟨keys, hkeys⟩ := told_resolveAll (a := a) hresolves
  have hresolve : (resolveAll l.draft).outcome a = .ok l.snapshot :=
    Script.canEnd_given.mp (canEnd_resolveAll.mpr ⟨hresolves, rfl⟩)
  use keys
  simp only [script, Script.bind_eq, Script.pure_eq_done]
  rw [Script.told_bind_of_ok Script.outcome_log, Script.told_log,
    Script.told_bind_of_ok (Walk.outcome_copyAll hA hnames),
    Walk.told_copyAll hA hnames, Script.told_bind_of_ok Script.outcome_log, Script.told_log,
    Script.told_bind_of_ok hresolve, hkeys, Script.told_bind_of_ok Script.outcome_log]
  simp

end Detach

end DetachedSchema
