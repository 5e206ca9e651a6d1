import DetachedSchema.Proofs.Listing.Snapshot

/-!
# Renumbering

Two snapshots may have one table in different places.  A table that is renumbered has another id,
and with it everything in the table that holds an id: what the table owns, and the unique keys that
its foreign keys refer to.  The place of a unique key in its table stays the same.
-/

namespace DetachedSchema

section

variable (ν : TableId → TableId)

/-- The key of the renumbered table. -/
def KeyId.renumbered (i : KeyId) : KeyId := { i with table := ν i.table }

/-- The column of the renumbered table. -/
def Column.renumbered (c : Column) : Column := { c with table := ν c.table }

/-- The index of the renumbered table. -/
def Index.renumbered (x : Index) : Index := { x with table := ν x.table }

/-- The unique key of the renumbered table. -/
def UniqueKey.renumbered (k : UniqueKey) : UniqueKey := { k with id := k.id.renumbered ν }

/-- The foreign key of the renumbered table, which refers to a key of a renumbered table. -/
def ForeignKey.renumbered (fk : ForeignKey) : ForeignKey :=
  { fk with table := ν fk.table, key := fk.key.renumbered ν }

/-- The identity of the renumbered table. -/
def Identity.renumbered (i : Identity) : Identity := { i with table := ν i.table }

/-- The table with other ids. -/
def Table.renumbered (t : Table) : Table :=
  { t with
    id := ν t.id
    columns := t.columns.map (·.renumbered ν)
    indexes := t.indexes.map (·.renumbered ν)
    uniqueKeys := t.uniqueKeys.map (·.renumbered ν)
    foreignKeys := t.foreignKeys.map (·.renumbered ν)
    identity := t.identity.map (·.renumbered ν) }

/-! ### Unique keys -/

variable {ν}

@[simp]
theorem Table.path_renumbered (t : Table) :
  (t.renumbered ν).path = t.path
  := rfl

@[simp]
theorem Table.columnNames_renumbered (t : Table) (positions : List Nat) :
  (t.renumbered ν).columnNames positions = t.columnNames positions
  := by
  have hcolumn : ∀ i : Nat, ((t.renumbered ν).columns[i]?).map Column.name
      = (t.columns[i]?).map Column.name := by
    intro i
    rw [renumbered, List.getElem?_map, Option.map_map]
    rfl
  simp only [columnNames, columnsAt, List.map_filterMap, hcolumn]

theorem KeyIndex.keysOf_renumbered (t : Table) :
  keysOf (t.renumbered ν) = (keysOf t).map fun k => { k with id := k.id.renumbered ν }
  := by
  simp only [keysOf, Table.columnNames_renumbered]
  simp only [Table.renumbered, List.map_map]
  rfl

/-- The first key among renumbered tables is the first one among the tables. -/
theorem firstKey?_renumbered (tables : List Table) (r : KeyReference) :
  firstKey? (tables.map (·.renumbered ν)) r = (firstKey? tables r).map (·.renumbered ν)
  := by
  induction tables with
  | nil => rfl
  | cons t tables ih =>
    rw [List.map_cons, firstKey?_cons, firstKey?_cons, ih, Option.map_or]
    congr 1
    by_cases h : t.path = r.table
    · simp [h, KeyIndex.keysOf_renumbered, List.find?_map, Function.comp_def]
    · simp [h]

/-- Only tables with the path that is referred to matter. -/
theorem firstKey?_filter_path (tables : List Table) (r : KeyReference) :
  firstKey? (tables.filter (·.path = r.table)) r = firstKey? tables r
  := by
  induction tables with
  | nil => rfl
  | cons t tables ih =>
    by_cases h : t.path = r.table
    · rw [List.filter_cons_of_pos (by simpa using h), firstKey?_cons, firstKey?_cons, ih]
    · rw [List.filter_cons_of_neg (by simpa using h), ih, firstKey?_cons, if_neg h]
      rfl

/-- When the tables of every path are renumbered, a reference to a table leads to the renumbered
key. -/
theorem firstKey?_of_filter_path {tables tables' : List Table} {r : KeyReference}
    (h : tables'.filter (·.path = r.table)
      = (tables.filter (·.path = r.table)).map (·.renumbered ν)) :
  firstKey? tables' r = (firstKey? tables r).map (·.renumbered ν)
  := by rw [← firstKey?_filter_path tables', h, firstKey?_renumbered, firstKey?_filter_path]

/-- A renumbered foreign key refers to the renumbered key, when the table that it referred to has
its renumbered keys in the other snapshot. -/
theorem target_renumbered {s s' : Snapshot} {fk : ForeignKey} {T T' : Table} {key : UniqueKey}
    (hT : s.table? fk.key.table = some T) (hkey : T.uniqueKeys[fk.key.key]? = some key)
    (hT' : s'.table? (ν fk.key.table) = some T')
    (hkeys : T'.uniqueKeys = T.uniqueKeys.map (·.renumbered ν)) :
  s.referencedTable? fk = some T ∧ s.referencedKey? fk = some key
    ∧ s'.referencedTable? (fk.renumbered ν) = some T'
    ∧ s'.referencedKey? (fk.renumbered ν) = some (key.renumbered ν)
  := by
  have hkey' : T'.uniqueKeys[fk.key.key]? = some (key.renumbered ν) := by
    rw [hkeys, List.getElem?_map, hkey, Option.map_some]
  use hT
  constructor
  · rw [Snapshot.referencedKey?, Snapshot.key?, hT]
    exact hkey
  use hT'
  have htable : s'.table? (fk.renumbered ν).key.table = some T' := hT'
  rw [Snapshot.referencedKey?, Snapshot.key?, htable]
  exact hkey'

/-! ### Tables of listings -/

namespace TableListing

variable (t : TableListing) (id : TableId) (path : TablePath)

/-- The draft of a table under another id. -/
theorem content_draft_renumbered :
  (t.draft (ν id) path).content = (t.draft id path).content.renumbered ν
  := by
  simp only [draft, Table.renumbered, Walk.copyColumns, Walk.copyIdentity, List.map_map,
    Option.map_map]
  rfl

variable {t} {find find' : KeyReference → Option KeyId}

/-- A table under another id, when every reference leads to the renumbered key. -/
theorem table_renumbered
    (h : ∀ e ∈ t.foreignKeys, (find e.references).isSome
      ∧ find' e.references = (find e.references).map (·.renumbered ν)) :
  t.table find' (ν id) path = (t.table find id path).renumbered ν
  := by
  have hforeignKeys : (t.foreignKeys.map (t.copyForeignKey (ν id) path)).map (·.settle find')
      = ((t.foreignKeys.map (t.copyForeignKey id path)).map (·.settle find)).map
        (·.renumbered ν) := by
    simp only [List.map_map]
    apply List.map_congr_left
    intro e he
    obtain ⟨hsome, hfind'⟩ := h e he
    obtain ⟨key, hkey⟩ := Option.isSome_iff_exists.mp hsome
    simp only [Function.comp_apply, PendingKey.settle, copyForeignKey, hfind', hkey,
      Option.map_some, Option.getD_some]
    rfl
  rw [table, table, content_draft_renumbered]
  simp only [Table.renumbered]
  congr 1

end TableListing

end

end DetachedSchema
