import DetachedSchema.Detach.Walk
import DetachedSchema.Listing.Basic
import DetachedSchema.Proofs.Traversal

/-!
# Drafts of listings

The copy of a listing, entry by entry.  A walk over a source copies what it is told; what it is told
makes a listing, and what it copies is the draft of that listing.  A draft exists for every listing,
also when an index or a key names a column that its table does not have; a walk then fails.
-/

namespace DetachedSchema

namespace TableListing

/-- Some column has the name. -/
def HasColumn (t : TableListing) (name : String) : Prop := ∃ c ∈ t.columns, c.name = name

/-- Every column that an index or a key names exists. -/
structure NamesColumns (t : TableListing) : Prop where
  indexes : ∀ e ∈ t.indexes, ∀ c ∈ e.columns, t.HasColumn c.name
  uniqueKeys : ∀ e ∈ t.uniqueKeys, ∀ name ∈ e.columns, t.HasColumn name
  foreignKeys : ∀ e ∈ t.foreignKeys, ∀ name ∈ e.columns, t.HasColumn name

/-- The position of the first column with a name. -/
def place (t : TableListing) (name : String) : Nat := t.columns.findIdx (·.name = name)

/-- The place of the primary key among the unique keys. -/
def primaryKeyPlace (t : TableListing) : Option Nat :=
  t.primaryKey.bind fun primary => t.uniqueKeys.findIdx? (·.sameKey primary)

/-- The copy of an index. -/
def copyIndex (t : TableListing) (id : TableId) (e : IndexEntry) : Index :=
  ⟨id, e.name, e.columns.map fun c => ⟨t.place c.name, c.order⟩, e.unique⟩

/-- The copy of a unique key with its place. -/
def copyKey (t : TableListing) (id : TableId) (e : KeyEntry × Nat) : UniqueKey :=
  ⟨⟨id, e.2⟩, e.1.name, e.1.columns.map t.place, e.1.enforced⟩

/-- The copy of a foreign key. -/
def copyForeignKey (t : TableListing) (id : TableId) (path : TablePath) (e : ForeignKeyEntry) :
    PendingKey :=
  ⟨id, path, e.name, e.columns.map t.place, e.enforced, e.references⟩

/-- The copy of a table with all that it owns. -/
def draft (t : TableListing) (id : TableId) (path : TablePath) : Draft Table where
  content :=
    { id, path
      comment := t.comment
      options := t.options
      columns := Walk.copyColumns id t.columns
      indexes := t.indexes.map (t.copyIndex id)
      uniqueKeys := t.uniqueKeys.zipIdx.map (t.copyKey id)
      primaryKeyPlace := t.primaryKeyPlace
      foreignKeys := []
      checks := t.checks
      identity := Walk.copyIdentity id t.columns }
  pending := t.foreignKeys.map (t.copyForeignKey id path)

/-! ### Positions of columns -/

theorem place_lt {t : TableListing} {name : String} :
  t.place name < t.columns.length ↔ t.HasColumn name
  := by simp [place, HasColumn, List.findIdx_lt_length]

@[simp]
theorem length_copyColumns {t : TableListing} {id : TableId} :
  (Walk.copyColumns id t.columns).length = t.columns.length
  := by simp [Walk.copyColumns]

theorem getElem?_copyColumns (t : TableListing) (id : TableId) {i : Nat} {c : Column} :
  (Walk.copyColumns id t.columns)[i]? = some c
    ↔ ∃ e, t.columns[i]? = some e ∧ c = Walk.copyColumn id i e
  := getElem?_map_zipIdx

/-- The column at the place of a name has the name. -/
theorem name_at_place {t : TableListing} (id : TableId) {name : String} (h : t.HasColumn name) :
  ((Walk.copyColumns id t.columns)[t.place name]?).map Column.name = some name
  := by
  have hlt := place_lt.mpr h
  have hname : (t.columns[t.place name]).name = name :=
    of_decide_eq_true (List.findIdx_getElem (w := hlt))
  have hcolumn := (getElem?_copyColumns t id).mpr ⟨_, List.getElem?_eq_getElem hlt, rfl⟩
  rw [hcolumn, Option.map_some, Walk.copyColumn, hname]

/-- Names that are turned into positions and back are unchanged. -/
theorem columnNames_map_place {t : TableListing} {T : Table}
    (hT : T.columns = Walk.copyColumns T.id t.columns) {names : List String}
    (h : ∀ name ∈ names, t.HasColumn name) :
  T.columnNames (names.map t.place) = names
  := by
  induction names with
  | nil => rfl
  | cons name names ih =>
    obtain ⟨hname, hnames⟩ := List.forall_mem_cons.mp h
    obtain ⟨c, hc, hcname⟩ := Option.map_eq_some_iff.mp (name_at_place T.id hname)
    rw [← hT] at hc
    have ih := ih hnames
    rw [Table.columnNames, Table.columnsAt] at ih ⊢
    rw [List.map_cons, List.filterMap_cons_some hc, List.map_cons, hcname, ih]

end TableListing

/-- The copy of a schema with its tables. -/
def SchemaListing.draft (s : SchemaListing) (id : SchemaId) (path : SchemaPath) : Draft Schema :=
  let tables := Draft.all <|
    s.tables.zipIdx.map fun (t, i) => t.draft (id.table i) (path.table t.name)
  { content :=
      { id
        name := s.name
        comment := s.comment
        domains := s.domains.map (Walk.copyDomain id)
        tables := tables.content
        sequences := s.sequences.map (Walk.copySequence id)
        userTypes := s.userTypes.map (Walk.copyUserType id) }
    pending := tables.pending }

/-- The copy of a catalog with its schemas. -/
def CatalogListing.draft (c : CatalogListing) (id : CatalogId) : Draft Catalog :=
  let schemas := Draft.all <|
    c.schemas.zipIdx.map fun (s, i) => s.draft (id.schema i) ⟨c.name, s.name⟩
  ⟨⟨id, c.name, c.comment, schemas.content⟩, schemas.pending⟩

/-- The copy of all that a listing has. -/
def Listing.draft (l : Listing) : Draft (List Catalog) :=
  Draft.all <| l.catalogs.zipIdx.map fun (c, i) => c.draft ⟨i⟩

/-- Every column that an index or a key names exists. -/
def Listing.NamesColumns (l : Listing) : Prop :=
  ∀ c ∈ l.catalogs, ∀ s ∈ c.schemas, ∀ t ∈ s.tables, t.NamesColumns

end DetachedSchema
