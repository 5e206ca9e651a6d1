import DetachedSchema.Proofs.Detach.Resolve
import DetachedSchema.Proofs.Snapshot.Consistency

/-!
# Detached snapshots are consistent

Whatever a source answers, and however it changes while it is read, what is detached from it is
consistent: the snapshot of a listing is, when every column that is named exists and every foreign
key has a target.
-/

namespace DetachedSchema

namespace TableListing

/-- Positions of columns that exist are in range. -/
theorem inRange_map_place {t : TableListing} {T : Table}
    (hT : T.columns = Walk.copyColumns T.id t.columns) {names : List String}
    (h : ∀ name ∈ names, t.HasColumn name) :
  T.InRange (names.map t.place)
  := by
  intro i hi
  obtain ⟨name, hname, rfl⟩ := List.mem_map.mp hi
  rw [hT, length_copyColumns]
  apply place_lt.mpr (h name hname)

end TableListing

namespace Listing

variable {l : Listing} (hnames : l.NamesColumns) (hresolves : l.Resolves)

include hnames hresolves

theorem foreignKey_consistent {p : PlacedTable} (hp : p ∈ l.placed) {e : ForeignKeyEntry}
    (he : e ∈ p.listing.foreignKeys) :
  ((p.listing.copyForeignKey p.id p.path e).settle l.key?).Consistent l.snapshot
    (p.listing.table l.key? p.id p.path)
  := by
  obtain ⟨hsome, hlength⟩ := hresolves.placed hp e he
  obtain ⟨id, hid⟩ := Option.isSome_iff_exists.mp hsome
  obtain ⟨_, key, -, hkey, -, -, hcolumns⟩ := exists_target hnames hid
  constructor
  · rfl
  · apply TableListing.inRange_map_place rfl
    apply (forall_placed hnames p hp).foreignKeys e he
  · use key
    constructor
    · rw [Snapshot.referencedKey?, PendingKey.settle, hid]
      exact hkey
    · rw [hcolumns]
      exact hlength.symm

theorem table_consistent {p : PlacedTable} (hp : p ∈ l.placed) :
  (p.listing.table l.key? p.id p.path).Consistent l.snapshot
  := by
  have hcolumns := forall_placed hnames p hp
  constructor
  case columns =>
    intro i c hc
    obtain ⟨e, -, rfl⟩ := (TableListing.getElem?_copyColumns p.listing p.id).mp hc
    exact ⟨rfl, rfl⟩
  case indexes =>
    intro x hx
    obtain ⟨e, he, rfl⟩ := List.mem_map.mp hx
    use rfl
    have hplaces : (p.listing.copyIndex p.id e).columns.map IndexColumn.column
        = (e.columns.map SortedColumnEntry.name).map p.listing.place := by
      rw [TableListing.copyIndex, List.map_map, List.map_map]
      rfl
    rw [hplaces]
    apply TableListing.inRange_map_place rfl
    simpa only [List.forall_mem_map] using hcolumns.indexes e he
  case uniqueKeys =>
    intro i key hkey
    obtain ⟨e, he, rfl⟩ := getElem?_map_zipIdx.mp hkey
    use rfl
    apply TableListing.inRange_map_place rfl
    apply hcolumns.uniqueKeys e (List.mem_of_getElem? he)
  case primaryKey =>
    intro i hi
    obtain ⟨primary, -, hplace⟩ := Option.bind_eq_some_iff.mp hi
    obtain ⟨hlt, -⟩ := List.findIdx?_eq_some_iff_findIdx_eq.mp hplace
    simpa [TableListing.table, TableListing.draft] using hlt
  case identity =>
    intro i hi
    obtain ⟨j, hj, rfl⟩ := Option.map_eq_some_iff.mp hi
    obtain ⟨hlt, -⟩ := List.findIdx?_eq_some_iff_findIdx_eq.mp hj
    use rfl
    rw [← TableListing.length_copyColumns (t := p.listing)] at hlt
    exact hlt
  case foreignKeys =>
    intro fk hfk
    obtain ⟨k, hk, rfl⟩ := List.mem_map.mp hfk
    obtain ⟨e, he, rfl⟩ := List.mem_map.mp hk
    apply foreignKey_consistent hnames hresolves hp he

/-- The snapshot of a listing is consistent. -/
theorem snapshot_consistent :
  l.snapshot.Consistent
  := by
  intro i C hC
  obtain ⟨c, hc, rfl⟩ := getElem?_catalogs.mp hC
  use rfl
  intro j S hS
  obtain ⟨s, hs, rfl⟩ := getElem?_map_zipIdx.mp hS
  constructor
  case place => rfl
  case domains =>
    intro d hd
    obtain ⟨e, -, rfl⟩ := List.mem_map.mp hd
    rfl
  case sequences =>
    intro q hq
    obtain ⟨e, -, rfl⟩ := List.mem_map.mp hq
    rfl
  case userTypes =>
    intro u hu
    obtain ⟨e, -, rfl⟩ := List.mem_map.mp hu
    rfl
  case tables =>
    intro k T hT
    obtain ⟨t, ht, rfl⟩ := getElem?_map_zipIdx.mp hT
    use rfl, rfl
    apply table_consistent hnames hresolves (mem_placed_of_getElem? hc hs ht)

end Listing

/-- A detached snapshot passes the check, whatever source it comes from: the source may list several
nodes of one name, and it may answer a question in another way the second time. -/
theorem validate_detached {σ : Type} (source : Source σ) (st : σ) {s : Snapshot}
    (h : (detach source st).1.result = .ok s) :
  s.validate = .ok () ∧ s.Consistent
  := by
  obtain ⟨l, -, hnames, hresolves, rfl⟩ := Detach.canEnd_script.mp (Script.canEnd_of_run h)
  have hconsistent := Listing.snapshot_consistent hnames hresolves
  exact ⟨Snapshot.validate_eq_ok.mpr hconsistent, hconsistent⟩

/-- A source that counts the questions.  It lists one table twice, and by the second time it has
found another column of it. -/
def Source.shifting : Source Nat where
  name := "shifting"
  reply q count :=
    let id : ColumnEntry := { name := "id", dataType := { name := "int" } }
    let key : KeyEntry := { name := "pk", columns := ["id"] }
    let answer : q.Answer := match q with
      | .catalogs => [{ name := "" }]
      | .schemas _ => [{ name := "s" }]
      | .tables _ => [{ name := "t" }, { name := "t" }]
      | .columns _ => if count < 10 then [id] else [{ id with name := "new" }, id]
      | .uniqueKeys _ => [key]
      | .primaryKey _ => some key
      | .foreignKeys _ =>
        [{ name := "fk", columns := ["id"], references := ⟨⟨"", "s", "t"⟩, ["id"]⟩ }]
      | .domains _ | .sequences _ | .userTypes _ | .indexes _ | .checks _ => []
    ({ result := .ok answer }, count + 1)

/-- The two tables of one path are detached with different columns, and the check passes. -/
theorem validate_detached_shifting :
  ∃ s, (detach Source.shifting 0).1.result = .ok s
    ∧ s.tables.map (·.columnNames [0, 1]) = [["id"], ["new", "id"]]
    ∧ s.validate = .ok () ∧ s.Consistent
  := by
  have hcolumns : (detach Source.shifting 0).1.result.map
      (fun s => s.tables.map (·.columnNames [0, 1])) = .ok [["id"], ["new", "id"]] := by
    decide +kernel
  cases h : (detach Source.shifting 0).1.result with
  | error fault =>
    rw [h] at hcolumns
    cases hcolumns
  | ok s =>
    rw [h] at hcolumns
    use s, rfl, Except.ok.inj hcolumns
    apply validate_detached Source.shifting 0 h

end DetachedSchema
