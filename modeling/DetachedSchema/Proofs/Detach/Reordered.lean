import DetachedSchema.Proofs.Detach.Alike
import DetachedSchema.Proofs.Detach.ByPath
import DetachedSchema.Proofs.Snapshot.Reordered

/-!
# Detaching in another order

Two sources that list the same nodes, but in another order, are detached to the same tables in other
places, when siblings have names of their own.  A foreign key may refer to a table that is listed
later; so whether it has a target does not depend on the order either.
-/

namespace DetachedSchema

/-! ### Snapshots with the same tables -/

/-- The id that a table of one snapshot has in another one, where it has the same path. -/
def Snapshot.counterpart (s s' : Snapshot) (id : TableId) : TableId :=
  match (s.table? id).bind fun t => s'.find? t.path with
  | some t => t.id
  | none => id

/-- The second snapshot has the tables of the first one in other places.  Every path leads to the
same table, and every foreign key to the same key of the same table. -/
structure Snapshot.SameTables (s s' : Snapshot) : Prop where
  tables : s'.tables.Perm (s.tables.map (·.renumbered (s.counterpart s')))
  paths : ∀ path, s'.find? path = (s.find? path).map (·.renumbered (s.counterpart s'))
  targets : ∀ fk ∈ s.foreignKeys, ∃ T key,
    s.referencedTable? fk = some T ∧ s.referencedKey? fk = some key
    ∧ s'.referencedTable? (fk.renumbered (s.counterpart s'))
      = some (T.renumbered (s.counterpart s'))
    ∧ s'.referencedKey? (fk.renumbered (s.counterpart s'))
      = some (key.renumbered (s.counterpart s'))

namespace Listing

/-- When siblings have names of their own, the path of a table leads to its copy. -/
theorem find?_of_mem_placed {a : Answers} {l : Listing} (h : l.Records a.given)
    (hdistinct : l.DistinctNames) {p : PlacedTable} (hp : p ∈ l.placed) :
  l.snapshot.find? p.path = some (p.listing.table l.key? p.id p.path)
  := by
  obtain ⟨-, hnone⟩ | ⟨p', hp', hpath, hsome⟩ := find?_snapshot h p.path
  · apply (hnone (hasTable_of_mem_placed h hp)).elim
  · obtain rfl := eq_of_path_eq hdistinct hp' hp hpath
    exact hsome

/-- The counterpart of a table is the one with its path. -/
theorem counterpart_snapshot {a : Answers} {l l' : Listing} (h' : l'.Records a.given)
    (hdistinct : l'.DistinctNames) {p p' : PlacedTable} (hp : p ∈ l.placed) (hp' : p' ∈ l'.placed)
    (hpath : p'.path = p.path) :
  l.snapshot.counterpart l'.snapshot p.id = p'.id
  := by
  have hfound : l'.snapshot.find? (p.listing.table l.key? p.id p.path).path = _ :=
    hpath ▸ find?_of_mem_placed h' hdistinct hp'
  rw [Snapshot.counterpart, table?_snapshot hp, Option.bind_some, hfound]
  rfl

section

variable {a b : Answers} {l l' : Listing} (hab : a.Reordered b) (ha : a.DistinctNames)
  (h : l.Records a.given) (h' : l'.Records b.given)

include hab ha h h'

/-- Listings of the same answers in another order have the same tables. -/
theorem placed_reordered :
  l'.placed.Perm (l.placed.map (·.renumbered (l.snapshot.counterpart l'.snapshot)))
  := by
  have hdistinct := h.distinctNames_iff.mp ha
  have hdistinct' := h'.distinctNames_iff.mp (hab.distinctNames ha)
  have hnodup : l.placed.Nodup := List.Nodup.of_map PlacedTable.id l.nodup_ids
  have hnodup' : l'.placed.Nodup := List.Nodup.of_map PlacedTable.id l'.nodup_ids
  -- No table stands twice, so it is enough that both have the same members.
  apply (List.perm_ext_iff_of_nodup hnodup' _).mpr
  · rintro ⟨id', path, t⟩
    rw [List.mem_map]
    constructor
    · intro hp'
      obtain ⟨id, hp⟩ := h.lists_iff.mp (hab.symm.lists (h'.lists_iff.mpr ⟨id', hp'⟩))
      use ⟨id, path, t⟩, hp
      rw [PlacedTable.renumbered, counterpart_snapshot h' hdistinct' hp hp' rfl]
    · rintro ⟨⟨id, path, t⟩, hp, heq⟩
      obtain ⟨id'', hp'⟩ := h'.lists_iff.mp (hab.lists (h.lists_iff.mpr ⟨id, hp⟩))
      rw [PlacedTable.renumbered, counterpart_snapshot h' hdistinct' hp hp' rfl] at heq
      rw [← heq]
      exact hp'
  · apply List.Nodup.map_on _ hnodup
    intro p hp p' hp' heq
    apply eq_of_path_eq hdistinct hp hp' (PlacedTable.mk.inj heq).2.1

variable (hresolves : l.Resolves)

include hresolves

/-- A path leads to the same table. -/
theorem find?_reordered (path : TablePath) :
  l'.snapshot.find? path
    = (l.snapshot.find? path).map (·.renumbered (l.snapshot.counterpart l'.snapshot))
  := by
  have hplaced := placed_reordered hab ha h h'
  have hdistinct := h.distinctNames_iff.mp ha
  have hdistinct' := h'.distinctNames_iff.mp (hab.distinctNames ha)
  obtain ⟨hnone, htable⟩ | ⟨p, hp, rfl, hsome⟩ := find?_snapshot h path
  · obtain ⟨hnone', -⟩ | ⟨p', hp', rfl, -⟩ := find?_snapshot h' path
    · rw [hnone, hnone', Option.map_none]
    · apply (htable (hab.hasTable_iff.mpr (hasTable_of_mem_placed h' hp'))).elim
  · rw [hsome, Option.map_some, ← table_reordered (nodup_paths hdistinct) hplaced hresolves hp]
    apply find?_of_mem_placed h' hdistinct' (renumbered_mem_placed hplaced hp)

/-- The snapshots have the same tables. -/
theorem sameTables_snapshot (hnames : l.NamesColumns) :
  l.snapshot.SameTables l'.snapshot
  := by
  have hplaced := placed_reordered hab ha h h'
  have hpaths := nodup_paths (h.distinctNames_iff.mp ha)
  constructor
  case tables => exact tables_reordered hpaths hplaced hresolves
  case paths => exact find?_reordered hab ha h h' hresolves
  case targets => exact fun fk => target_reordered hpaths hplaced hresolves hnames

end

end Listing

/-! ### Sources in another order -/

/-- When a source can be detached, so can a source that answers in another order. -/
theorem Detach.exists_result_reordered {σ τ : Type} {source : Source σ} {source' : Source τ}
    {st : σ} (st' : τ) {a b : Answers} (h : source.AnswersAs a) (h' : source'.AnswersAs b)
    (hab : a.Reordered b) (ha : a.DistinctNames) {s : Snapshot}
    (hs : (detach source st).1.result = .ok s) :
  ∃ s', (detach source' st').1.result = .ok s'
  := by
  obtain ⟨l, hrecords, hnames, hresolves, rfl⟩ := (detach_eq_ok_iff h).mp hs
  have hanswers : ∀ q, b.Reaches q → ∃ y, b q = .ok y := by
    intro q hq
    have hq := hab.reaches_iff.mpr hq
    obtain ⟨x, hx⟩ := hrecords.exists_answer hnames hq
    obtain ⟨y, hy, -⟩ := (hab q hq).exists_ok x hx
    exact ⟨y, hy⟩
  obtain ⟨l', hrecords'⟩ := Listing.exists_records hanswers
  have hplaced := Listing.placed_reordered hab ha hrecords hrecords'
  have hpaths := Listing.nodup_paths (hrecords.distinctNames_iff.mp ha)
  use l'.snapshot
  apply (detach_eq_ok_iff h').mpr
  use l', hrecords', Listing.namesColumns_reordered hplaced hnames
  use Listing.resolves_reordered hpaths hplaced hresolves

/-- Orders refer to customers in another catalog, to items and to orders. -/
def Listing.shop : Listing where
  catalogs :=
    let id : ColumnEntry := { name := "id", dataType := { name := "int" } }
    let table : TableListing :=
      { name := "customers", columns := [id], uniqueKeys := [⟨"pk", ["id"], true⟩] }
    let orders : TableListing :=
      { table with
        name := "orders"
        foreignKeys :=
          [⟨"fk_customer", ["id"], true, ⟨⟨"crm", "s", "customers"⟩, ["id"]⟩⟩,
           ⟨"fk_item", ["id"], true, ⟨⟨"shop", "s", "items"⟩, ["id"]⟩⟩,
           ⟨"fk_order", ["id"], true, ⟨⟨"shop", "s", "orders"⟩, ["id"]⟩⟩] }
    let items : TableListing := { table with name := "items" }
    [{ name := "shop", schemas := [{ name := "s", tables := [orders, items] }, { name := "t" }] },
     { name := "crm", schemas := [{ name := "s", tables := [table] }] }]

/-- The listing from its end. -/
def Listing.reversed (l : Listing) : Listing where
  catalogs := l.catalogs.reverse.map fun c =>
    { c with schemas := c.schemas.reverse.map fun s => { s with tables := s.tables.reverse } }

theorem Listing.distinctNames_shop :
  Listing.shop.DistinctNames
  := by
  constructor
  case catalogs => decide
  case schemas => decide
  case tables => decide

/-- Nothing is listed in another way but in another order. -/
theorem Listing.reordered_shop :
  Answers.Reordered Listing.shop.answer Listing.shop.reversed.answer
  := by
  have hrecords := Listing.distinctNames_shop.records
  have halike : ∀ q ∈ Listing.shop.questions,
      q.AlikeResults (Listing.shop.answer q) (Listing.shop.reversed.answer q) := by
    decide +kernel
  intro q hq
  apply halike q (hrecords.mem_questions.mpr hq)

/-- Two sources that list the same nodes in two orders can both be detached or neither, and the
snapshots have the same tables in other places. -/
theorem detach_reordered {σ τ : Type} (source : Source σ) (source' : Source τ) (st : σ) (st' : τ)
    {a b : Answers} (h : source.AnswersAs a) (h' : source'.AnswersAs b) (hab : a.Reordered b)
    (ha : a.DistinctNames) :
  ((∃ s, (detach source st).1.result = .ok s) ↔ ∃ s', (detach source' st').1.result = .ok s')
  ∧ ∀ s s', (detach source st).1.result = .ok s → (detach source' st').1.result = .ok s' →
    s.SameTables s'
  := by
  constructor
  · constructor
    · rintro ⟨s, hs⟩
      apply Detach.exists_result_reordered st' h h' hab ha hs
    · rintro ⟨s', hs'⟩
      apply Detach.exists_result_reordered st h' h hab.symm (hab.distinctNames ha) hs'
  · intro s s' hs hs'
    obtain ⟨l, hrecords, hnames, hresolves, rfl⟩ := (detach_eq_ok_iff h).mp hs
    obtain ⟨l', hrecords', -, -, rfl⟩ := (detach_eq_ok_iff h').mp hs'
    apply Listing.sameTables_snapshot hab ha hrecords hrecords' hresolves hnames

/-- The orders of the shop refer to the same keys in both orders, which stand in other places. -/
theorem detach_reordered_shop :
  let s := Listing.shop.snapshot
  let s' := Listing.shop.reversed.snapshot
  (detach Listing.shop.source ()).1.result = .ok s
  ∧ (detach Listing.shop.reversed.source ()).1.result = .ok s'
  ∧ s.foreignKeys.map ForeignKey.key = [⟨⟨1, 0, 0⟩, 0⟩, ⟨⟨0, 0, 1⟩, 0⟩, ⟨⟨0, 0, 0⟩, 0⟩]
  ∧ s'.foreignKeys.map ForeignKey.key = [⟨⟨0, 0, 0⟩, 0⟩, ⟨⟨1, 1, 0⟩, 0⟩, ⟨⟨1, 1, 1⟩, 0⟩]
  ∧ s.SameTables s'
  := by
  have hrecords := Listing.distinctNames_shop.records
  have hs : (detach Listing.shop.source ()).1.result = .ok Listing.shop.snapshot := by
    decide +kernel
  have hs' : (detach Listing.shop.reversed.source ()).1.result
      = .ok Listing.shop.reversed.snapshot := by
    decide +kernel
  obtain ⟨-, hsame⟩ := detach_reordered Listing.shop.source Listing.shop.reversed.source () ()
    (Source.answersAs_ofAnswers _ _) (Source.answersAs_ofAnswers _ _) Listing.reordered_shop
    (hrecords.distinctNames_iff.mpr Listing.distinctNames_shop)
  use hs, hs'
  constructor
  · decide +kernel
  constructor
  · decide +kernel
  · apply hsame _ _ hs hs'

end DetachedSchema
