import DetachedSchema.Detach.KeyIndex
import Mathlib.Tactic.Common

/-!
# The index against a scan

The index of unique keys finds what looking through all tables in order finds: the first key of a
table with the path that has exactly the columns.  Tables that share a path do not hide each other.
-/

namespace DetachedSchema

/-- The first unique key, table by table, whose table has the path and whose columns have the names
that the reference gives. -/
def firstKey? (tables : List Table) (r : KeyReference) : Option KeyId :=
  ((tables.flatMap fun t => t.uniqueKeys.map fun key => (t, key)).find? fun (t, key) =>
    t.path = r.table ∧ t.columnNames key.columns = r.columns).map fun (_, key) => key.id

theorem firstKey?_nil (r : KeyReference) :
  firstKey? [] r = none
  := rfl

/-- A key of the first table comes before all others. -/
theorem firstKey?_cons (t : Table) (tables : List Table) (r : KeyReference) :
  firstKey? (t :: tables) r =
    ((if t.path = r.table then
      (KeyIndex.keysOf t).find? (·.columns = r.columns) else none).map IndexedKey.id).or
      (firstKey? tables r)
  := by
  rw [firstKey?, List.flatMap_cons, List.find?_append, List.find?_map, Option.map_or, firstKey?]
  congr 1
  by_cases h : t.path = r.table
  · simp [h, KeyIndex.keysOf, List.find?_map, Function.comp_def]
  · simp [h, Function.comp_def]

/-- A key that is found is a key of some table with the path, and has the columns. -/
theorem exists_of_firstKey? {tables : List Table} {r : KeyReference} {id : KeyId}
    (h : firstKey? tables r = some id) :
  ∃ t ∈ tables, t.path = r.table
    ∧ ∃ key ∈ t.uniqueKeys, t.columnNames key.columns = r.columns ∧ key.id = id
  := by
  obtain ⟨⟨t, key⟩, hfound, hid⟩ := Option.map_eq_some_iff.mp h
  have hmem := List.mem_of_find?_eq_some hfound
  have hmatch := List.find?_some hfound
  obtain ⟨hpath, hcolumns⟩ := of_decide_eq_true hmatch
  simp only [List.mem_flatMap, List.mem_map, Prod.mk.injEq] at hmem
  obtain ⟨_, ht, _, hkey, rfl, rfl⟩ := hmem
  exact ⟨_, ht, hpath, _, hkey, hcolumns, hid⟩

/-- Some key is found when some table with the path has a key with the columns. -/
theorem firstKey?_isSome {tables : List Table} {r : KeyReference} :
  (firstKey? tables r).isSome ↔ ∃ t ∈ tables, t.path = r.table
    ∧ ∃ key ∈ t.uniqueKeys, t.columnNames key.columns = r.columns
  := by
  simp only [firstKey?, Option.isSome_map, List.find?_isSome, List.mem_flatMap, List.mem_map]
  constructor
  · rintro ⟨_, ⟨t, ht, key, hkey, rfl⟩, hmatch⟩
    obtain ⟨hpath, hcolumns⟩ := of_decide_eq_true hmatch
    exact ⟨t, ht, hpath, key, hkey, hcolumns⟩
  · rintro ⟨t, ht, hpath, key, hkey, hcolumns⟩
    exact ⟨(t, key), ⟨t, ht, key, hkey, rfl⟩, decide_eq_true ⟨hpath, hcolumns⟩⟩

namespace KeyIndex

/-- The keys that a grouping has for a path. -/
def keysAt (groups : List (TablePath × List IndexedKey)) (path : TablePath) : List IndexedKey :=
  (groups.lookup path).getD []

theorem find?_eq (index : KeyIndex) (r : KeyReference) :
  index.find? r = ((keysAt index.groups r.table).find? (·.columns = r.columns)).map IndexedKey.id
  := by
  rw [find?, keysAt]
  cases index.groups.lookup r.table with
  | none => rfl
  | some keys => rfl

theorem keysAt_cons (p : TablePath) (ks : List IndexedKey)
    (groups : List (TablePath × List IndexedKey)) (path : TablePath) :
  keysAt ((p, ks) :: groups) path = if p = path then ks else keysAt groups path
  := by
  by_cases h : p = path
  · simp [keysAt, h]
  · have hne : (path == p) = false := by simpa using Ne.symm h
    simp [keysAt, List.lookup_cons, h, hne]

/-- Keys are added to those of their path and to no others. -/
theorem keysAt_insert (p : TablePath) (ks : List IndexedKey)
    (groups : List (TablePath × List IndexedKey)) (path : TablePath) :
  keysAt (insert p ks groups) path = keysAt groups path ++ if p = path then ks else []
  := by
  induction groups with
  | nil => exact keysAt_cons p ks [] path
  | cons group groups ih =>
    obtain ⟨p', ks'⟩ := group
    rw [insert]
    by_cases hp : p' = p
    · obtain rfl := hp
      rw [if_pos rfl, keysAt_cons, keysAt_cons]
      by_cases hpath : p' = path
      · simp [hpath]
      · simp [hpath]
    · rw [if_neg hp, keysAt_cons, keysAt_cons, ih]
      by_cases hpath : p' = path
      · have hne : ¬ p = path := fun h => hp (hpath.trans h.symm)
        simp [hpath, hne]
      · simp [hpath]

/-- Tables that are added are looked at after those that are there already. -/
theorem find?_foldl_insert (tables : List Table) (groups : List (TablePath × List IndexedKey))
    (r : KeyReference) :
  find? ⟨tables.foldl (fun groups t => insert t.path (keysOf t) groups) groups⟩ r
    = (find? ⟨groups⟩ r).or (firstKey? tables r)
  := by
  induction tables generalizing groups with
  | nil => simp [firstKey?_nil]
  | cons t tables ih =>
    rw [List.foldl_cons, ih, firstKey?_cons, ← Option.or_assoc]
    congr 1
    rw [find?_eq, find?_eq, keysAt_insert, List.find?_append, Option.map_or]
    by_cases h : t.path = r.table
    · simp [h]
    · simp [h]

/-- The index finds what a scan of the tables finds. -/
theorem find?_ofTables (tables : List Table) (r : KeyReference) :
  (ofTables tables).find? r = firstKey? tables r
  := by
  apply (find?_foldl_insert tables [] r).trans
  rfl

end KeyIndex

end DetachedSchema
