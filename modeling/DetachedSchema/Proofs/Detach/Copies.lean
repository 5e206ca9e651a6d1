import DetachedSchema.Proofs.Detach.Walk
import DetachedSchema.Proofs.Script.Ends
import DetachedSchema.Proofs.Snapshot.Navigation

/-!
# The copies that a walk is put together from

The draft with which a walk ends is put together from copies of tables, each of which is what some
run of copying a table ended with.  Every table stands where its id says, and the foreign keys that
were put aside come table by table, those of a table in the order in which the source declared them.
-/

namespace DetachedSchema

variable {σ : Type} {source : Source σ}

/-- What some run of copying a table ended with: the table, which has no foreign keys yet, and those
that were put aside with it, in the order in which the source declared them. -/
structure Draft.IsCopy (source : Source σ) (d : Draft Table) : Prop where
  copied : ∃ e, (Walk.copyTable d.content.id d.content.path e).Ends source d
  declared : ∃ entries, source.possible (.foreignKeys d.content.path) entries
    ∧ entries.mapM (Walk.copyForeignKey d.content) = .ok d.pending
  bare : d.content.foreignKeys = []

/-- All that was copied is in the copies of some tables, in their order. -/
def Draft.PutTogether {α : Type} (source : Source σ) (tables : α → List Table) (d : Draft α) :
    Prop :=
  ∃ copies : List (Draft Table), tables d.content = copies.map Draft.content
    ∧ d.pending = copies.flatMap Draft.pending ∧ ∀ c ∈ copies, c.IsCopy source

/-- Drafts that are put together from copies are so as one draft. -/
theorem Draft.putTogether_all {α : Type} {tables : α → List Table} {drafts : List (Draft α)}
    (h : ∀ d ∈ drafts, d.PutTogether source tables) :
  (Draft.all drafts).PutTogether source fun contents => contents.flatMap tables
  := by
  induction drafts with
  | nil => exact ⟨[], rfl, rfl, List.forall_mem_nil _⟩
  | cons d drafts ih =>
    obtain ⟨hd, hdrafts⟩ := List.forall_mem_cons.mp h
    obtain ⟨first, hfirst, hfirstPending, hfirstCopies⟩ := hd
    obtain ⟨rest, hrest, hrestPending, hrestCopies⟩ := ih hdrafts
    use first ++ rest
    constructor
    · simp only [Draft.all, List.map_cons, List.flatMap_cons, List.map_append] at hrest ⊢
      rw [hfirst, hrest]
    · constructor
      · simp only [Draft.all, List.flatMap_cons, List.flatMap_append] at hrestPending ⊢
        rw [hfirstPending, hrestPending]
      · intro c hc
        obtain hc | hc := List.mem_append.mp hc
        · apply hfirstCopies c hc
        · apply hrestCopies c hc

namespace Walk

/-! ### Foreign keys of a copy -/

/-- A position is that of a column. -/
theorem position_lt {path : TablePath} {columns : List Column} {owner name : String} {i : Nat}
    (h : position path columns owner name = .ok i) :
  i < columns.length
  := by
  rw [position] at h
  cases hi : columns.findIdx? (·.name = name) with
  | some j =>
    rw [hi] at h
    obtain rfl := Except.ok.inj h
    exact (List.findIdx?_eq_some_iff_findIdx_eq.mp hi).1
  | none =>
    rw [hi] at h
    cases h

/-- A foreign key is put aside with the id and the path of its table and with columns of it. -/
theorem of_copyForeignKey {t : Table} {e : ForeignKeyEntry} {k : PendingKey}
    (h : copyForeignKey t e = .ok k) :
  k.table = t.id ∧ k.path = t.path ∧ t.InRange k.columns
  := by
  obtain ⟨positions, hpositions, hk⟩ := bind_eq_ok.mp h
  obtain rfl := Except.ok.inj hk
  use rfl, rfl
  intro i hi
  obtain ⟨name, -, hname⟩ := exists_of_mem_mapM hpositions hi
  apply position_lt hname

end Walk

theorem Draft.IsCopy.of_mem_pending {d : Draft Table} (h : d.IsCopy source) {k : PendingKey}
    (hk : k ∈ d.pending) :
  k.table = d.content.id ∧ k.path = d.content.path ∧ d.content.InRange k.columns
  := by
  obtain ⟨entries, -, hentries⟩ := h.declared
  obtain ⟨e, -, he⟩ := exists_of_mem_mapM hentries hk
  apply Walk.of_copyForeignKey he

namespace Walk

/-! ### Nodes -/

/-- What a run of copying a table ends with is a copy. -/
theorem isCopy_of_ends {id : TableId} {path : TablePath} {e : TableEntry} {d : Draft Table}
    (h : (copyTable id path e).Ends source d) :
  d.IsCopy source
  := by
  have hcopied := h
  obtain ⟨columns, -, h⟩ := Script.Ends.query h
  obtain ⟨_, -, h⟩ := h.bind
  obtain ⟨indexes, -, h⟩ := Script.Ends.query h
  obtain ⟨_, -, h⟩ := h.bind
  obtain ⟨keys, -, h⟩ := Script.Ends.query h
  obtain ⟨_, -, h⟩ := h.bind
  obtain ⟨primary, -, h⟩ := Script.Ends.query h
  obtain ⟨_, -, h⟩ := h.bind
  obtain ⟨foreignKeys, hforeignKeys, h⟩ := Script.Ends.query h
  obtain ⟨pending, hpending, h⟩ := h.bind
  obtain ⟨checks, -, h⟩ := Script.Ends.query h
  obtain ⟨_, -, h⟩ := h.bind
  obtain rfl := Script.ends_done h
  constructor
  case copied => exact ⟨e, hcopied⟩
  case declared => exact ⟨foreignKeys, hforeignKeys, Script.ends_ofExcept hpending⟩
  case bare => rfl

/-- A schema is put together from the copies of its tables. -/
theorem putTogether_copySchema {id : SchemaId} {path : SchemaPath} {e : SchemaEntry}
    {d : Draft Schema} (h : (copySchema id path e).Ends source d) :
  d.PutTogether source Schema.tables
  := by
  obtain ⟨_, -, h⟩ := h.bind
  obtain ⟨domains, -, h⟩ := Script.Ends.query h
  obtain ⟨entries, -, h⟩ := Script.Ends.query h
  obtain ⟨drafts, hdrafts, h⟩ := h.bind
  obtain ⟨sequences, -, h⟩ := Script.Ends.query h
  obtain ⟨userTypes, -, h⟩ := Script.Ends.query h
  obtain rfl := Script.ends_done h
  use drafts, rfl, rfl
  intro c hc
  obtain ⟨x, -, hx⟩ := hdrafts.mapM c hc
  apply isCopy_of_ends hx

/-- A catalog is put together from the copies of the tables of its schemas. -/
theorem putTogether_copyCatalog {id : CatalogId} {e : CatalogEntry} {d : Draft Catalog}
    (h : (copyCatalog id e).Ends source d) :
  d.PutTogether source fun c => c.schemas.flatMap Schema.tables
  := by
  obtain ⟨entries, -, h⟩ := Script.Ends.query h
  obtain ⟨drafts, hdrafts, h⟩ := h.bind
  obtain rfl := Script.ends_done h
  apply Draft.putTogether_all
  intro s hs
  obtain ⟨x, -, hx⟩ := hdrafts.mapM s hs
  apply putTogether_copySchema hx

/-- A walk ends with a draft that is put together from copies of tables. -/
theorem putTogether_copyAll {d : Draft (List Catalog)} (h : copyAll.Ends source d) :
  d.PutTogether source fun catalogs => Snapshot.tables ⟨catalogs⟩
  := by
  obtain ⟨entries, -, h⟩ := Script.Ends.query h
  obtain ⟨drafts, hdrafts, h⟩ := h.bind
  obtain rfl := Script.ends_done h
  simp only [Snapshot.tables, Snapshot.schemas, List.flatMap_assoc]
  apply Draft.putTogether_all
  intro c hc
  obtain ⟨x, -, hx⟩ := hdrafts.mapM c hc
  apply putTogether_copyCatalog hx

/-! ### Places -/

section

variable {d : Draft (List Catalog)} (h : copyAll.Ends source d)

include h

/-- Where an id leads, the table carries that id. -/
theorem id_of_table? {id : TableId} {t : Table} (ht : Snapshot.table? ⟨d.content⟩ id = some t) :
  t.id = id
  := by
  obtain ⟨l, -, -, rfl⟩ := canEnd_copyAll.mp h.canEnd
  obtain ⟨C, S, hC, hS, hT⟩ := Snapshot.table?_eq_some.mp ht
  simp only [Listing.draft, Draft.all, List.map_map] at hC
  obtain ⟨c, hc, rfl⟩ := getElem?_map_zipIdx.mp hC
  simp only [CatalogListing.draft, Draft.all, List.map_map, Function.comp_def] at hS
  obtain ⟨s, hs, rfl⟩ := getElem?_map_zipIdx.mp hS
  simp only [SchemaListing.draft, Draft.all, List.map_map, Function.comp_def] at hT
  obtain ⟨t, ht, rfl⟩ := getElem?_map_zipIdx.mp hT
  rfl

/-- A table stands where its own id leads. -/
theorem table?_of_mem {t : Table} (ht : t ∈ Snapshot.tables ⟨d.content⟩) :
  Snapshot.table? ⟨d.content⟩ t.id = some t
  := by
  obtain ⟨id, hid⟩ := Snapshot.mem_tables.mp ht
  rwa [id_of_table? h hid]

/-- No two tables have one id. -/
theorem nodup_ids :
  ((Snapshot.tables ⟨d.content⟩).map Table.id).Nodup
  := by
  obtain ⟨l, -, -, rfl⟩ := canEnd_copyAll.mp h.canEnd
  rw [Listing.tables_draft, List.map_map]
  apply l.nodup_ids

end

end Walk

end DetachedSchema
