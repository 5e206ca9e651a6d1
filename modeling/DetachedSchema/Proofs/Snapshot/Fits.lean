import DetachedSchema.Proofs.Codec.Records
import DetachedSchema.Proofs.Snapshot.Consistency

/-!
# Snapshots that fit

Every number of a consistent snapshot is the place of something that it holds, so that a snapshot
whose counts fit 64 bits can be written.
-/

namespace DetachedSchema

open Codec (fits_count fits_list fits_option fits_record)

/-- All counts fit 64 bits, as the counts of a snapshot that is held in memory do. -/
structure Stats.Fits (s : Stats) : Prop where
  catalogs : s.catalogs < UInt64.size
  schemas : s.schemas < UInt64.size
  domains : s.domains < UInt64.size
  tables : s.tables < UInt64.size
  columns : s.columns < UInt64.size
  indexes : s.indexes < UInt64.size
  uniqueKeys : s.uniqueKeys < UInt64.size
  primaryKeys : s.primaryKeys < UInt64.size
  foreignKeys : s.foreignKeys < UInt64.size
  checks : s.checks < UInt64.size
  sequences : s.sequences < UInt64.size
  userTypes : s.userTypes < UInt64.size

theorem Stats.fits_encode {s : Stats} (h : s.Fits) :
  (codec.encode s).Fits
  := fits_record ⟨fits_count h.catalogs, fits_count h.schemas, fits_count h.domains,
    fits_count h.tables, fits_count h.columns, fits_count h.indexes, fits_count h.uniqueKeys,
    fits_count h.primaryKeys, fits_count h.foreignKeys, fits_count h.checks,
    fits_count h.sequences, fits_count h.userTypes, trivial⟩

/-- One owner has no more parts than all of them together. -/
theorem length_le_countAll {α β : Type} {part : α → List β} {owners : List α} {a : α}
    (ha : a ∈ owners) :
  (part a).length ≤ countAll part owners
  := by
  obtain ⟨front, back, rfl⟩ := List.append_of_mem ha
  rw [countAll, List.flatMap_append, List.flatMap_cons, List.length_append, List.length_append]
  omega

theorem lt_of_getElem? {α : Type} {l : List α} {a : α} {i bound : Nat} (h : l[i]? = some a)
    (hbound : l.length < bound) :
  i < bound
  := Nat.lt_trans (List.getElem?_eq_some_iff.mp h).1 hbound

/-! ### Ids -/

section

variable {s : Snapshot}

theorem SchemaId.fits_encode {id : SchemaId} (hcatalog : id.catalog < UInt64.size)
    (hschema : id.schema < UInt64.size) :
  (codec.encode id).Fits
  := fits_record ⟨fits_count hcatalog, fits_count hschema, trivial⟩

theorem TableId.fits_encode {id : TableId} (hcatalog : id.catalog < UInt64.size)
    (hschema : id.schema < UInt64.size) (htable : id.table < UInt64.size) :
  (codec.encode id).Fits
  := fits_record ⟨fits_count hcatalog, fits_count hschema, fits_count htable, trivial⟩

theorem KeyId.fits_encode {id : KeyId} (htable : (TableId.codec.encode id.table).Fits)
    (hkey : id.key < UInt64.size) :
  (codec.encode id).Fits
  := fits_record ⟨htable, fits_count hkey, trivial⟩

namespace Snapshot

/-- The id of a schema that a snapshot holds fits. -/
theorem fits_schemaId (h : s.stats.Fits) {id : SchemaId} {x : Schema} (hx : s.schema? id = some x) :
  x ∈ s.schemas ∧ (SchemaId.codec.encode id).Fits
  := by
  obtain ⟨c, hc, hx⟩ := Option.bind_eq_some_iff.mp hx
  have hmem := List.mem_of_getElem? hc
  have hlength : c.schemas.length ≤ s.schemas.length := length_le_countAll hmem
  use List.mem_flatMap.mpr ⟨c, hmem, List.mem_of_getElem? hx⟩
  exact SchemaId.fits_encode (lt_of_getElem? hc h.catalogs)
    (lt_of_getElem? hx (Nat.lt_of_le_of_lt hlength h.schemas))

/-- The id of a table that a snapshot holds fits. -/
theorem fits_tableId (h : s.stats.Fits) {id : TableId} {t : Table} (ht : s.table? id = some t) :
  t ∈ s.tables ∧ (TableId.codec.encode id).Fits
  := by
  obtain ⟨x, hx, ht⟩ := Option.bind_eq_some_iff.mp ht
  obtain ⟨hmem, -⟩ := fits_schemaId h hx
  have hlength : x.tables.length ≤ s.tables.length := length_le_countAll hmem
  use List.mem_flatMap.mpr ⟨x, hmem, List.mem_of_getElem? ht⟩
  obtain ⟨c, hc, hx⟩ := Option.bind_eq_some_iff.mp hx
  have hschemas : c.schemas.length ≤ s.schemas.length :=
    length_le_countAll (List.mem_of_getElem? hc)
  exact TableId.fits_encode (lt_of_getElem? hc h.catalogs)
    (lt_of_getElem? hx (Nat.lt_of_le_of_lt hschemas h.schemas))
    (lt_of_getElem? ht (Nat.lt_of_le_of_lt hlength h.tables))

/-- The id of a unique key that a snapshot holds fits. -/
theorem fits_keyId (h : s.stats.Fits) {id : KeyId} {key : UniqueKey} (hkey : s.key? id = some key) :
  (KeyId.codec.encode id).Fits
  := by
  obtain ⟨t, ht, hkey⟩ := Option.bind_eq_some_iff.mp hkey
  obtain ⟨hmem, hid⟩ := fits_tableId h ht
  have hlength : t.uniqueKeys.length ≤ s.stats.uniqueKeys := length_le_countAll hmem
  exact KeyId.fits_encode hid (lt_of_getElem? hkey (Nat.lt_of_le_of_lt hlength h.uniqueKeys))

end Snapshot

end

/-! ### Tables -/

section

variable {s : Snapshot} {t : Table}

/-- Positions of columns fit. -/
theorem Table.InRange.fits {positions : List Nat} (hrange : t.InRange positions)
    (hcolumns : t.columns.length < UInt64.size) :
  ∀ p ∈ positions, (Codec.count.encode p).Fits
  := fun p hp => fits_count (Nat.lt_trans (hrange p hp) hcolumns)

section

variable (hid : (TableId.codec.encode t.id).Fits) (hcolumns : t.columns.length < UInt64.size)

include hid hcolumns

theorem Table.Consistent.fits_column (ht : t.Consistent s) {c : Column} (hc : c ∈ t.columns) :
  (Column.codec.encode c).Fits
  := by
  obtain ⟨i, hi⟩ := List.mem_iff_getElem?.mp hc
  obtain ⟨htable, hposition⟩ := ht.columns i c hi
  exact fits_record ⟨htable ▸ hid, fits_count (hposition ▸ lt_of_getElem? hi hcolumns), trivial,
    Codec.Bounded.fits _, trivial, trivial⟩

theorem Table.Consistent.fits_index (ht : t.Consistent s) {x : Index} (hx : x ∈ t.indexes) :
  (Index.codec.encode x).Fits
  := by
  obtain ⟨htable, hrange⟩ := ht.indexes x hx
  refine fits_record ⟨htable ▸ hid, trivial, fits_list ?_, trivial, trivial⟩
  intro c hc
  exact fits_record ⟨hrange.fits hcolumns _ (List.mem_map_of_mem hc), trivial, trivial⟩

theorem Table.Consistent.fits_uniqueKey (ht : t.Consistent s)
    (hkeys : t.uniqueKeys.length < UInt64.size) {key : UniqueKey} (hkey : key ∈ t.uniqueKeys) :
  (UniqueKey.codec.encode key).Fits
  := by
  obtain ⟨i, hi⟩ := List.mem_iff_getElem?.mp hkey
  obtain ⟨hplace, hrange⟩ := ht.uniqueKeys i key hi
  have hkeyId : (KeyId.codec.encode ⟨t.id, i⟩).Fits :=
    KeyId.fits_encode hid (lt_of_getElem? hi hkeys)
  exact fits_record ⟨hplace ▸ hkeyId, trivial, fits_list (hrange.fits hcolumns), trivial, trivial⟩

theorem Table.Consistent.fits_identity (ht : t.Consistent s) {i : Identity} (hi : i ∈ t.identity) :
  (Identity.codec.encode i).Fits
  := by
  obtain ⟨htable, hcolumn⟩ := ht.identity i hi
  exact fits_record ⟨htable ▸ hid, fits_count (Nat.lt_trans hcolumn hcolumns), trivial⟩

theorem ForeignKey.Consistent.fits {fk : ForeignKey} (hfk : fk.Consistent s t) (h : s.stats.Fits) :
  (codec.encode fk).Fits
  := by
  obtain ⟨key, hkey, -⟩ := hfk.target
  exact fits_record ⟨hfk.table ▸ hid, trivial, fits_list (hfk.columns.fits hcolumns), trivial,
    Snapshot.fits_keyId h hkey, trivial⟩

end

theorem Table.Consistent.fits (ht : t.Consistent s) (h : s.stats.Fits)
    (hid : s.table? t.id = some t) :
  (codec.encode t).Fits
  := by
  obtain ⟨hmem, hid⟩ := Snapshot.fits_tableId h hid
  have hcolumns : t.columns.length < UInt64.size :=
    Nat.lt_of_le_of_lt (length_le_countAll hmem) h.columns
  have hkeys : t.uniqueKeys.length < UInt64.size :=
    Nat.lt_of_le_of_lt (length_le_countAll hmem) h.uniqueKeys
  exact fits_record ⟨hid, Codec.Bounded.fits _, trivial, Codec.Bounded.fits _,
    fits_list fun _ hc => ht.fits_column hid hcolumns hc,
    fits_list fun _ hx => ht.fits_index hid hcolumns hx,
    fits_list fun _ hkey => ht.fits_uniqueKey hid hcolumns hkeys hkey,
    fits_option fun p hp => fits_count (Nat.lt_trans (ht.primaryKey p hp) hkeys),
    fits_list fun fk hfk => (ht.foreignKeys fk hfk).fits hid hcolumns h,
    Codec.Bounded.fits _,
    fits_option fun _ hi => ht.fits_identity hid hcolumns hi, trivial⟩

end

/-! ### Snapshots -/

theorem Schema.Consistent.fits {s : Snapshot} {catalog : String} {x : Schema}
    (hx : x.Consistent s catalog x.id) (h : s.stats.Fits) (hid : s.schema? x.id = some x) :
  (codec.encode x).Fits
  := by
  obtain ⟨-, hencode⟩ := Snapshot.fits_schemaId h hid
  refine fits_record ⟨hencode, trivial, trivial, fits_list ?_, fits_list ?_, fits_list ?_,
    fits_list ?_, trivial⟩
  · intro d hd
    exact fits_record ⟨hx.domains d hd ▸ hencode, trivial, Codec.Bounded.fits _,
      Codec.Bounded.fits _, trivial⟩
  · intro t ht
    obtain ⟨k, hk⟩ := List.mem_iff_getElem?.mp ht
    obtain ⟨htable, -, hconsistent⟩ := hx.tables k t hk
    apply hconsistent.fits h
    rw [htable]
    exact Option.bind_eq_some_iff.mpr ⟨x, hid, hk⟩
  · intro q hq
    exact fits_record ⟨hx.sequences q hq ▸ hencode, trivial, Codec.Bounded.fits _,
      Codec.Bounded.fits _, Codec.Bounded.fits _, Codec.Bounded.fits _, Codec.Bounded.fits _,
      trivial, Codec.Bounded.fits _, trivial⟩
  · intro u hu
    exact fits_record ⟨hx.userTypes u hu ▸ hencode, trivial, Codec.Bounded.fits _, trivial,
      Codec.Bounded.fits _, trivial⟩

/-- A consistent snapshot whose counts fit is written without a number that does not. -/
theorem Snapshot.Consistent.fits {s : Snapshot} (hs : s.Consistent) (h : s.stats.Fits) :
  (codec.encode s).Fits
  := by
  refine fits_record ⟨fits_list ?_, trivial⟩
  intro c hc
  obtain ⟨i, hi⟩ := List.mem_iff_getElem?.mp hc
  obtain ⟨hplace, hschemas⟩ := hs i c hi
  have hindex : c.id.index < UInt64.size := hplace ▸ lt_of_getElem? hi h.catalogs
  refine fits_record ⟨fits_count hindex, trivial, trivial, fits_list ?_, trivial⟩
  intro x hx
  obtain ⟨j, hj⟩ := List.mem_iff_getElem?.mp hx
  have hconsistent := hschemas j x hj
  apply (hconsistent.place ▸ hconsistent : x.Consistent s c.name x.id).fits h
  rw [hconsistent.place]
  exact Option.bind_eq_some_iff.mpr ⟨c, hi, hj⟩

end DetachedSchema
