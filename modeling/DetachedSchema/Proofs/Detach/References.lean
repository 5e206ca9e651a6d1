import DetachedSchema.Listing.Source
import DetachedSchema.Proofs.Detach.Resolve

/-!
# Which references are resolved

Once a source has been walked, detaching succeeds exactly when every foreign key has a target: a
unique key over the columns that it names, in their order, in some table with the path that it
names, and with as many columns as it has itself.  Every foreign key then refers to the first such
key.  Else the first foreign key without a target is the fault.
-/

namespace DetachedSchema

/-- The foreign keys that are answered for some tables, table by table. -/
def Answers.foreignKeys (a : Answers) (tables : List Table) : List (Table × ForeignKeyEntry) :=
  tables.flatMap fun t =>
    match a (.foreignKeys t.path) with
    | .ok entries => entries.map (t, ·)
    | .error _ => []

/-- Some table with the path has a unique key over the columns, in order, and there are as many
columns on both sides. -/
structure ForeignKeyEntry.Resolvable (tables : List Table) (e : ForeignKeyEntry) : Prop where
  target : ∃ t ∈ tables, t.path = e.references.table
    ∧ ∃ key ∈ t.uniqueKeys, t.columnNames key.columns = e.references.columns
  columnCount : e.columns.length = e.references.columns.length

/-- The foreign key has what the entry says, its columns are the first ones of their names, and it
refers to the first unique key that the entry refers to. -/
structure ForeignKeyEntry.Settles (tables : List Table) (t : Table) (e : ForeignKeyEntry)
    (fk : ForeignKey) : Prop where
  table : fk.table = t.id
  name : fk.name = e.name
  enforced : fk.enforced = e.enforced
  columns : e.columns.map (fun name => t.columns.findIdx? (·.name = name)) = fk.columns.map some
  key : firstKey? tables e.references = some fk.key

/-- The second table is the first one with a foreign key for every entry, in order. -/
structure Table.Settled (tables : List Table) (entries : List ForeignKeyEntry) (t t' : Table) :
    Prop where
  copied : t' = { t with foreignKeys := t'.foreignKeys }
  foreignKeys : List.Forall₂ (ForeignKeyEntry.Settles tables t) entries t'.foreignKeys

/-! ### Foreign keys of listings -/

namespace Listing

/-- The foreign keys of all tables, table by table. -/
def declared (l : Listing) : List (PlacedTable × ForeignKeyEntry) :=
  l.placed.flatMap fun p => p.listing.foreignKeys.map (p, ·)

theorem pending_eq_map_declared (l : Listing) :
  l.draft.pending = l.declared.map fun x => x.1.listing.copyForeignKey x.1.id x.1.path x.2
  := by
  rw [pending_draft, declared, List.map_flatMap]
  simp [PlacedTable.draft, TableListing.draft, Function.comp_def]

/-- A listing that records answers has the foreign keys that are answered. -/
theorem foreignKeys_tables_draft {a : Answers} {l : Listing} (h : l.Records a.given) :
  a.foreignKeys (Snapshot.tables ⟨l.draft.content⟩)
    = l.declared.map fun x => (x.1.draft.content, x.2)
  := by
  rw [tables_draft, Answers.foreignKeys, declared, List.flatMap_map, List.map_flatMap]
  apply List.flatMap_congr
  intro p hp
  have hentries : a (.foreignKeys p.draft.content.path) = .ok p.listing.foreignKeys :=
    (h.placed hp).foreignKeys
  rw [hentries, List.map_map]
  rfl

/-- A foreign key that was put aside has a target when its entry has one. -/
theorem resolves_iff {l : Listing} {p : PlacedTable} {e : ForeignKeyEntry} :
  (p.listing.copyForeignKey p.id p.path e).Resolves l.key?
    ↔ e.Resolvable (Snapshot.tables ⟨l.draft.content⟩)
  := by
  simp only [PendingKey.Resolves, TableListing.copyForeignKey, key?, firstKey?_isSome,
    List.length_map]
  constructor
  · rintro ⟨htarget, hcount⟩
    exact ⟨htarget, hcount⟩
  · intro h
    exact ⟨h.target, h.columnCount⟩

theorem resolves_iff_forall_declared {l : Listing} :
  l.Resolves ↔ ∀ x ∈ l.declared, x.2.Resolvable (Snapshot.tables ⟨l.draft.content⟩)
  := by
  simp only [Resolves, pending_eq_map_declared, List.forall_mem_map, resolves_iff]

/-- The columns of a copied foreign key are the first ones of their names. -/
theorem map_findIdx?_columns {p : PlacedTable} {names : List String}
    (h : ∀ name ∈ names, p.listing.HasColumn name) :
  names.map (fun name => p.draft.content.columns.findIdx? (·.name = name))
    = (names.map p.listing.place).map some
  := by
  rw [List.map_map]
  apply List.map_congr_left
  intro name hname
  apply (Walk.findIdx?_copyColumns p.id p.listing name).trans
  apply List.findIdx?_eq_some_iff_findIdx_eq.mpr
  exact ⟨TableListing.place_lt.mpr (h name hname), rfl⟩

/-- In the snapshot of a listing every table is settled. -/
theorem settled {l : Listing} (hnames : l.NamesColumns) (hresolves : l.Resolves) {p : PlacedTable}
    (hp : p ∈ l.placed) :
  Table.Settled (Snapshot.tables ⟨l.draft.content⟩) p.listing.foreignKeys p.draft.content
    (p.listing.table l.key? p.id p.path)
  := by
  constructor
  case copied => rfl
  case foreignKeys =>
    simp only [TableListing.table, TableListing.draft, List.map_map, List.forall₂_map_right_iff,
      List.forall₂_same]
    intro e he
    obtain ⟨hsome, -⟩ := hresolves.placed hp e he
    obtain ⟨id, hid⟩ := Option.isSome_iff_exists.mp hsome
    constructor
    case table => rfl
    case name => rfl
    case enforced => rfl
    case columns =>
      apply map_findIdx?_columns
      apply (forall_placed hnames p hp).foreignKeys e he
    case key =>
      rw [Function.comp_apply, PendingKey.settle, hid]
      exact hid

/-- The tables of the snapshot are those of the draft, settled. -/
theorem forall₂_settled {a : Answers} {l : Listing} (h : l.Records a.given)
    (hnames : l.NamesColumns) (hresolves : l.Resolves) :
  List.Forall₂
    (fun t t' => ∃ entries, a (.foreignKeys t.path) = .ok entries
      ∧ t.Settled (Snapshot.tables ⟨l.draft.content⟩) entries t')
    (Snapshot.tables ⟨l.draft.content⟩) l.snapshot.tables
  := by
  conv => enter [2]; rw [tables_draft]
  rw [tables_snapshot, List.forall₂_map_left_iff, List.forall₂_map_right_iff, List.forall₂_same]
  intro p hp
  use p.listing.foreignKeys, (h.placed hp).foreignKeys
  apply settled hnames hresolves hp

/-- The fault of a draft that cannot be resolved is that of the first foreign key without a
target. -/
theorem first_unresolved {a : Answers} {l : Listing} (h : l.Records a.given) {fault : Fault}
    (hfault : (Detach.resolveAll l.draft).outcome a = .error fault) :
  ∃ before t e after,
    a.foreignKeys (Snapshot.tables ⟨l.draft.content⟩) = before ++ (t, e) :: after
    ∧ (∀ x ∈ before, x.2.Resolvable (Snapshot.tables ⟨l.draft.content⟩))
    ∧ ¬ e.Resolvable (Snapshot.tables ⟨l.draft.content⟩)
    ∧ fault = .unresolvedReference e.name t.path.text e.references.table.text
      (", ".intercalate e.references.columns)
  := by
  obtain ⟨before, k, after, hpending, hbefore, hk, rfl⟩ :=
    Detach.outcome_resolveAll_eq_error.mp hfault
  rw [pending_eq_map_declared] at hpending
  obtain ⟨before, rest, hdeclared, rfl, hrest⟩ := List.map_eq_append_iff.mp hpending
  obtain ⟨⟨p, e⟩, after, rfl, rfl, -⟩ := List.map_eq_cons_iff.mp hrest
  use before.map fun x => (x.1.draft.content, x.2), p.draft.content, e
  use after.map fun x => (x.1.draft.content, x.2)
  constructor
  · rw [foreignKeys_tables_draft h, hdeclared, List.map_append, List.map_cons]
  constructor
  · simp only [List.forall_mem_map] at hbefore ⊢
    intro x hx
    apply resolves_iff.mp (hbefore x hx)
  constructor
  · apply resolves_iff.not.mp hk
  · rfl

end Listing

/-- When the walk succeeds, every walked table has an answer about its foreign keys, and detaching
succeeds exactly when each of these has a target; the tables are then settled.  Else the fault is
that of the first foreign key without a target.  The index finds what a scan of all tables finds. -/
theorem detach_resolves_exactly {σ : Type} (source : Source σ) (st : σ) {a : Answers}
    (h : source.AnswersAs a) {draft : Draft (List Catalog)}
    (hdraft : (Walk.copyAll.run source st).1.result = .ok draft) :
  let tables := Snapshot.tables ⟨draft.content⟩
  (∀ t ∈ tables, ∃ entries, a (.foreignKeys t.path) = .ok entries)
  ∧ ((∃ s, (detach source st).1.result = .ok s)
    ↔ ∀ x ∈ a.foreignKeys tables, x.2.Resolvable tables)
  ∧ (∀ s, (detach source st).1.result = .ok s →
    List.Forall₂ (fun t t' => ∃ entries, a (.foreignKeys t.path) = .ok entries
      ∧ t.Settled tables entries t') tables s.tables)
  ∧ (∀ fault, (detach source st).1.result = .error fault →
    ∃ before t e after, a.foreignKeys tables = before ++ (t, e) :: after
      ∧ (∀ x ∈ before, x.2.Resolvable tables) ∧ ¬ e.Resolvable tables
      ∧ fault = .unresolvedReference e.name t.path.text e.references.table.text
        (", ".intercalate e.references.columns))
  ∧ ∀ r, (KeyIndex.ofTables tables).find? r = firstKey? tables r
  := by
  rw [Script.result_run h] at hdraft
  rw [detach, Script.result_run h, Detach.outcome_script hdraft]
  obtain ⟨l, hrecords, hnames, rfl⟩ := Walk.canEnd_copyAll.mp (Script.canEnd_given.mpr hdraft)
  simp only [← Script.canEnd_given, Detach.canEnd_resolveAll]
  constructor
  · intro t ht
    rw [Listing.tables_draft] at ht
    obtain ⟨p, hp, rfl⟩ := List.mem_map.mp ht
    exact ⟨_, (hrecords.placed hp).foreignKeys⟩
  constructor
  · simp only [exists_and_left, exists_eq, and_true, Listing.resolves_iff_forall_declared,
      Listing.foreignKeys_tables_draft hrecords, List.forall_mem_map]
  constructor
  · rintro s ⟨hresolves, rfl⟩
    apply Listing.forall₂_settled hrecords hnames hresolves
  constructor
  · intro fault hfault
    apply Listing.first_unresolved hrecords hfault
  · intro r
    apply KeyIndex.find?_ofTables

/-- Orders refer to customers in another catalog, where the table is listed twice and has two keys
over the column after one over two columns. -/
def Listing.orders : Listing where
  catalogs :=
    let id : ColumnEntry := { name := "id", dataType := { name := "int" } }
    let customers : TableListing :=
      { name := "customers"
        columns := [{ id with name := "region" }, id]
        uniqueKeys :=
          [⟨"place", ["region", "id"], true⟩, ⟨"pk", ["id"], true⟩, ⟨"uk", ["id"], true⟩] }
    let orders : TableListing :=
      { name := "orders"
        columns := [id, { id with name := "customer" }]
        foreignKeys := [⟨"fk", ["customer"], false, ⟨⟨"crm", "s", "customers"⟩, ["id"]⟩⟩] }
    [{ name := "shop", schemas := [{ name := "s", tables := [orders] }] },
     { name := "crm", schemas := [{ name := "s", tables := [customers, customers] }] }]

/-- The foreign key of the orders has a target, which is the second key of the first table of
customers. -/
theorem detach_resolves_exactly_orders :
  let tables := Snapshot.tables ⟨Listing.orders.draft.content⟩
  (Walk.copyAll.run Listing.orders.source ()).1.result = .ok Listing.orders.draft
  ∧ (detach Listing.orders.source ()).1.result = .ok Listing.orders.snapshot
  ∧ Listing.orders.snapshot.foreignKeys = [⟨⟨0, 0, 0⟩, "fk", [1], false, ⟨⟨1, 0, 0⟩, 1⟩⟩]
  ∧ (∀ x ∈ Answers.foreignKeys Listing.orders.answer tables, x.2.Resolvable tables)
  ∧ List.Forall₂ (fun t t' => ∃ entries, Listing.orders.answer (.foreignKeys t.path) = .ok entries
    ∧ t.Settled tables entries t') tables Listing.orders.snapshot.tables
  := by
  have hdraft : (Walk.copyAll.run Listing.orders.source ()).1.result
      = .ok Listing.orders.draft := by
    decide +kernel
  have hsnapshot : (detach Listing.orders.source ()).1.result = .ok Listing.orders.snapshot := by
    decide +kernel
  obtain ⟨-, hresolvable, hsettled, -⟩ :=
    detach_resolves_exactly Listing.orders.source () (Source.answersAs_ofAnswers _ _) hdraft
  use hdraft, hsnapshot
  constructor
  · decide +kernel
  · exact ⟨hresolvable.mp ⟨_, hsnapshot⟩, hsettled _ hsnapshot⟩

end DetachedSchema
