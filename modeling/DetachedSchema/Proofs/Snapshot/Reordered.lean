import DetachedSchema.Proofs.Snapshot.Renumbering

/-!
# Listings in another order

Two listings that have the same tables under the same paths, but in other places.  When no two
tables share a path, a reference leads to the same key of the same table in both.  The tables of
one snapshot are then the renumbered tables of the other.
-/

namespace DetachedSchema

/-- The table in another place. -/
def PlacedTable.renumbered (ν : TableId → TableId) (p : PlacedTable) : PlacedTable :=
  { p with id := ν p.id }

namespace Listing

variable {l l' : Listing} {ν : TableId → TableId} (hpaths : (l.placed.map PlacedTable.path).Nodup)
  (hplaced : l'.placed.Perm (l.placed.map (·.renumbered ν)))

include hplaced

/-- A table of the first listing is one of the second. -/
theorem renumbered_mem_placed {p : PlacedTable} (hp : p ∈ l.placed) :
  p.renumbered ν ∈ l'.placed
  := hplaced.mem_iff.mpr (List.mem_map_of_mem hp)

/-- A property of the tables of the first listing is one of the tables of the second. -/
theorem forall_placed_reordered {P : TableListing → Prop} (h : ∀ p ∈ l.placed, P p.listing) :
  ∀ p ∈ l'.placed, P p.listing
  := by
  intro p' hp'
  obtain ⟨p, hp, rfl⟩ := List.mem_map.mp (hplaced.mem_iff.mp hp')
  apply h p hp

theorem namesColumns_reordered (h : l.NamesColumns) :
  l'.NamesColumns
  := forall_of_placed (forall_placed_reordered hplaced (forall_placed h))

include hpaths

/-- A reference leads to the renumbered key. -/
theorem key?_reordered (r : KeyReference) :
  l'.key? r = (l.key? r).map (·.renumbered ν)
  := by
  have hpaths' : (l'.placed.map PlacedTable.path).Nodup := by
    rw [(hplaced.map PlacedTable.path).nodup_iff, List.map_map]
    exact hpaths
  -- Only tables with the path matter, and there is no more than one.
  have hfiltered := filter_eq_of_perm hplaced hpaths' r.table
  rw [List.filter_map] at hfiltered
  apply firstKey?_of_filter_path
  rw [tables_draft, tables_draft, List.filter_map, List.filter_map, List.map_map]
  apply (congrArg (List.map fun p => p.draft.content) hfiltered).trans
  rw [List.map_map]
  apply List.map_congr_left
  intro p _
  apply TableListing.content_draft_renumbered p.listing

theorem resolves_reordered (h : l.Resolves) :
  l'.Resolves
  := by
  rw [resolves_iff_forall_placed] at h ⊢
  apply forall_placed_reordered hplaced (P := fun t => ∀ e ∈ t.foreignKeys,
    (l'.key? e.references).isSome ∧ e.columns.length = e.references.columns.length)
  intro p hp e he
  rw [key?_reordered hpaths hplaced, Option.isSome_map]
  apply h p hp e he

variable (hresolves : l.Resolves)

include hresolves

/-- The copy of a table is renumbered. -/
theorem table_reordered {p : PlacedTable} (hp : p ∈ l.placed) :
  p.listing.table l'.key? (ν p.id) p.path = (p.listing.table l.key? p.id p.path).renumbered ν
  := by
  apply TableListing.table_renumbered
  intro e he
  exact ⟨(hresolves.placed hp e he).1, key?_reordered hpaths hplaced e.references⟩

/-- The tables of the second snapshot are those of the first one, renumbered. -/
theorem tables_reordered :
  l'.snapshot.tables.Perm (l.snapshot.tables.map (·.renumbered ν))
  := by
  rw [tables_snapshot, tables_snapshot, List.map_map]
  apply (hplaced.map _).trans
  rw [List.map_map]
  apply List.Perm.of_eq
  apply List.map_congr_left
  intro p hp
  apply table_reordered hpaths hplaced hresolves hp

/-- A renumbered id is that of the renumbered table. -/
theorem table?_reordered {p : PlacedTable} (hp : p ∈ l.placed) :
  l'.snapshot.table? (ν p.id) = some ((p.listing.table l.key? p.id p.path).renumbered ν)
  := by
  rw [← table_reordered hpaths hplaced hresolves hp]
  apply table?_snapshot (renumbered_mem_placed hplaced hp)

/-- A foreign key refers to the same key of the same table. -/
theorem target_reordered (hnames : l.NamesColumns) {fk : ForeignKey}
    (hfk : fk ∈ l.snapshot.foreignKeys) :
  ∃ T key, l.snapshot.referencedTable? fk = some T ∧ l.snapshot.referencedKey? fk = some key
    ∧ l'.snapshot.referencedTable? (fk.renumbered ν) = some (T.renumbered ν)
    ∧ l'.snapshot.referencedKey? (fk.renumbered ν) = some (key.renumbered ν)
  := by
  obtain ⟨p, hp, hid, key, hkey⟩ := exists_referenced hnames hresolves hfk
  have htable : l.snapshot.table? fk.key.table = some (p.listing.table l.key? p.id p.path) := by
    rw [hid, table?_snapshot hp]
  have htable' : l'.snapshot.table? (ν fk.key.table)
      = some ((p.listing.table l.key? p.id p.path).renumbered ν) := by
    rw [hid, table?_reordered hpaths hplaced hresolves hp]
  exact ⟨_, key, target_renumbered htable hkey htable' rfl⟩

end Listing

end DetachedSchema
