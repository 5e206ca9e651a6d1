import DetachedSchema.Proofs.Detach.Unchecked

/-!
# Snapshots in normal form

A consistent snapshot may hold what no detaching comes to: the position of a second column of one
name, a second key over the same columns, an identity that is not the first one.  Read by names, the
first one is found.  A snapshot is normal when everything that it refers to is the first one of its
kind, and among consistent snapshots whose siblings have names of their own just the normal ones are
detached to themselves.
-/

namespace DetachedSchema

namespace Table

/-- The position of the first column that has the name of the column at a position. -/
def firstColumn? (t : Table) (position : Nat) : Option Nat := do
  let c ← t.columns[position]?
  t.columns.findIdx? (·.name = c.name)

/-- The place of the first unique key with the name of a key and over columns of the same names. -/
def firstKeyLike? (t : Table) (key : UniqueKey) : Option Nat :=
  t.uniqueKeys.findIdx? fun k =>
    k.name = key.name ∧ t.columnNames k.columns = t.columnNames key.columns

/-- The place of the first unique key over columns of the same names as those of a key. -/
def firstKeyOver? (t : Table) (key : UniqueKey) : Option Nat :=
  t.uniqueKeys.findIdx? fun k => t.columnNames k.columns = t.columnNames key.columns

end Table

/-- The columns of the foreign key are the first ones of their names, and the key that it refers to
is the first one over its columns. -/
@[mk_iff]
structure ForeignKey.IsNormal (s : Snapshot) (t : Table) (fk : ForeignKey) : Prop where
  columns : ∀ p ∈ fk.columns, t.firstColumn? p = some p
  target : ∀ T ∈ s.referencedTable? fk, ∀ key ∈ s.referencedKey? fk,
    T.firstKeyOver? key = some fk.key.key

/-- Whatever the table refers to is the first one of its kind. -/
@[mk_iff]
structure Table.IsNormal (s : Snapshot) (t : Table) : Prop where
  indexes : ∀ x ∈ t.indexes, ∀ c ∈ x.columns, t.firstColumn? c.column = some c.column
  uniqueKeys : ∀ key ∈ t.uniqueKeys, ∀ p ∈ key.columns, t.firstColumn? p = some p
  primaryKey : ∀ i ∈ t.primaryKeyPlace, ∀ key ∈ t.uniqueKeys[i]?, t.firstKeyLike? key = some i
  foreignKeys : ∀ fk ∈ t.foreignKeys, fk.IsNormal s t
  identity : t.identity.map Identity.column = t.columns.findIdx? (·.dataType.identity)

/-- All tables are normal. -/
def Snapshot.IsNormal (s : Snapshot) : Prop := ∀ t ∈ s.tables, t.IsNormal s

instance (s : Snapshot) (t : Table) : DecidablePred (ForeignKey.IsNormal s t) :=
  fun _ => decidable_of_iff' _ (ForeignKey.isNormal_iff ..)

instance (s : Snapshot) : DecidablePred (Table.IsNormal s) :=
  fun _ => decidable_of_iff' _ (Table.isNormal_iff ..)

instance (s : Snapshot) : Decidable s.IsNormal :=
  inferInstanceAs (Decidable (∀ t ∈ s.tables, t.IsNormal s))

/-! ### Columns -/

namespace Table

variable {s : Snapshot} {t : Table}

/-- A name leads to the first column of the name. -/
theorem place_listing_iff {p : Nat} :
  (t.columns[p]?).map (fun c => (t.listing s).place c.name) = some p ↔ t.firstColumn? p = some p
  := by
  cases hc : t.columns[p]? with
  | none => simp [firstColumn?, hc]
  | some c =>
    have hlt : p < t.columns.length := (List.getElem?_eq_some_iff.mp hc).1
    simp only [firstColumn?, hc, Option.map_some, Option.some.injEq, Option.bind_eq_bind,
      Option.bind_some, List.findIdx?_eq_some_iff_findIdx_eq, hlt, true_and]
    rw [TableListing.place, Table.listing, List.findIdx_map]
    rfl

/-- Positions are found again when they are those of the first columns of their names. -/
theorem map_place_columnNames_iff {positions : List Nat} (h : t.InRange positions) :
  (t.columnNames positions).map (t.listing s).place = positions
    ↔ ∀ p ∈ positions, t.firstColumn? p = some p
  := by
  have hsome : ∀ p ∈ positions, (t.columns[p]?).isSome := by
    intro p hp
    simpa using h p hp
  rw [columnNames, columnsAt, List.map_map, map_filterMap_eq_self_iff hsome]
  apply forall₂_congr
  intro p _
  exact place_listing_iff

/-! ### What a table owns -/

/-- Every column is found again in its place. -/
theorem copyColumns_listing
    (h : ∀ (i : Nat) (c : Column), t.columns[i]? = some c → c.table = t.id ∧ c.position = i) :
  Walk.copyColumns t.id (t.listing s).columns = t.columns
  := by
  apply map_zipIdx_eq_self_iff.mpr
  intro i c hc
  obtain ⟨htable, hposition⟩ := h i c hc
  obtain ⟨table, position, name, dataType, comment⟩ := c
  obtain rfl := htable
  obtain rfl := hposition
  rfl

/-- An index is found again when its columns are. -/
theorem copyIndex_indexEntry_iff {x : Index} (htable : x.table = t.id)
    (h : t.InRange (x.columns.map IndexColumn.column)) :
  (t.listing s).copyIndex t.id (t.indexEntry x) = x
    ↔ ∀ c ∈ x.columns, t.firstColumn? c.column = some c.column
  := by
  obtain ⟨table, name, columns, unique⟩ := x
  obtain rfl := htable
  have hsome : ∀ c ∈ columns, ((t.columns[c.column]?).map fun column =>
      (⟨column.name, c.order⟩ : SortedColumnEntry)).isSome := by
    intro c hc
    simpa using h c.column (List.mem_map_of_mem hc)
  have hcolumns := map_filterMap_eq_self_iff hsome
    (g := fun c => (⟨(t.listing s).place c.name, c.order⟩ : IndexColumn))
  simp only [TableListing.copyIndex, indexEntry, Index.mk.injEq, hcolumns, true_and, and_true]
  apply forall₂_congr
  rintro ⟨p, order⟩ -
  rw [← place_listing_iff (s := s)]
  cases t.columns[p]? with
  | none => simp
  | some c => simp

/-- A unique key is found again when its columns are. -/
theorem copyKey_keyEntry_iff {key : UniqueKey} {i : Nat} (hid : key.id = ⟨t.id, i⟩)
    (h : t.InRange key.columns) :
  (t.listing s).copyKey t.id (t.keyEntry key, i) = key
    ↔ ∀ p ∈ key.columns, t.firstColumn? p = some p
  := by
  rw [← map_place_columnNames_iff (s := s) h]
  obtain ⟨id, name, columns, enforced⟩ := key
  obtain rfl := hid
  simp [TableListing.copyKey, keyEntry]

theorem Consistent.indexes_listing_iff (h : t.Consistent s) :
  (t.listing s).indexes.map ((t.listing s).copyIndex t.id) = t.indexes
    ↔ ∀ x ∈ t.indexes, ∀ c ∈ x.columns, t.firstColumn? c.column = some c.column
  := by
  rw [listing, List.map_map, map_eq_self_iff]
  apply forall₂_congr
  intro x hx
  obtain ⟨htable, hrange⟩ := h.indexes x hx
  exact copyIndex_indexEntry_iff htable hrange

theorem Consistent.uniqueKeys_listing_iff (h : t.Consistent s) :
  (t.listing s).uniqueKeys.zipIdx.map ((t.listing s).copyKey t.id) = t.uniqueKeys
    ↔ ∀ key ∈ t.uniqueKeys, ∀ p ∈ key.columns, t.firstColumn? p = some p
  := by
  have hkeys : ∀ (i : Nat) (key : UniqueKey), t.uniqueKeys[i]? = some key →
      ((t.listing s).copyKey t.id (t.keyEntry key, i) = key
        ↔ ∀ p ∈ key.columns, t.firstColumn? p = some p) := by
    intro i key hkey
    obtain ⟨hid, hrange⟩ := h.uniqueKeys i key hkey
    exact copyKey_keyEntry_iff hid hrange
  apply map_zipIdx_eq_self_iff.trans
  constructor
  · intro hall key hkey
    obtain ⟨i, hi⟩ := List.getElem?_of_mem hkey
    exact (hkeys i key hi).mp (hall i key hi)
  · intro hall i key hi
    exact (hkeys i key hi).mpr (hall key (List.mem_of_getElem? hi))

/-- The primary key is found again when it is the first key that declares the same key. -/
theorem primaryKeyPlace_listing_iff (h : ∀ i ∈ t.primaryKeyPlace, i < t.uniqueKeys.length) :
  (t.listing s).primaryKeyPlace = t.primaryKeyPlace
    ↔ ∀ i ∈ t.primaryKeyPlace, ∀ key ∈ t.uniqueKeys[i]?, t.firstKeyLike? key = some i
  := by
  have hfound : ∀ key, (t.listing s).uniqueKeys.findIdx? (·.sameKey (t.keyEntry key))
      = t.firstKeyLike? key := by
    intro key
    apply List.findIdx?_map.trans
    rw [firstKeyLike?]
    congr 1
    funext k
    apply KeyEntry.sameKey_eq
  rw [TableListing.primaryKeyPlace]
  cases hplace : t.primaryKeyPlace with
  | none => simp [listing, primaryKey?, hplace]
  | some i =>
    obtain ⟨key, hkey⟩ : ∃ key, t.uniqueKeys[i]? = some key :=
      ⟨_, List.getElem?_eq_getElem (h i hplace)⟩
    have hprimary : (t.listing s).primaryKey = some (t.keyEntry key) := by
      simp [listing, primaryKey?, hplace, hkey]
    simp [hprimary, hfound, hkey]

/-- The identity is found again when it is the first one. -/
theorem copyIdentity_listing_iff (h : ∀ i ∈ t.identity, i.table = t.id) :
  Walk.copyIdentity t.id (t.listing s).columns = t.identity
    ↔ t.identity.map Identity.column = t.columns.findIdx? (·.dataType.identity)
  := by
  have hfound : (t.listing s).columns.findIdx? (·.dataType.identity)
      = t.columns.findIdx? (·.dataType.identity) := List.findIdx?_map
  rw [Walk.copyIdentity, hfound]
  cases hidentity : t.identity with
  | none => simp [eq_comm (a := none)]
  | some identity =>
    obtain ⟨table, column⟩ := identity
    obtain rfl := h _ hidentity
    cases t.columns.findIdx? (·.dataType.identity) with
    | none => simp
    | some place => simp [eq_comm]

/-- Tables with the same entry, columns and checks differ in nothing but the rest. -/
theorem eq_iff_of_columns {T : Table} (hid : T.id = t.id) (hpath : T.path = t.path)
    (hcomment : T.comment = t.comment) (hoptions : T.options = t.options)
    (hcolumns : T.columns = t.columns) (hchecks : T.checks = t.checks) :
  T = t ↔ T.indexes = t.indexes ∧ T.uniqueKeys = t.uniqueKeys
    ∧ T.primaryKeyPlace = t.primaryKeyPlace ∧ T.foreignKeys = t.foreignKeys
    ∧ T.identity = t.identity
  := by
  constructor
  · rintro rfl
    exact ⟨rfl, rfl, rfl, rfl, rfl⟩
  · rintro ⟨hindexes, huniqueKeys, hprimaryKey, hforeignKeys, hidentity⟩
    cases T
    cases t
    congr

end Table

/-! ### Tables -/

namespace Snapshot.Consistent

variable {s : Snapshot} {t : Table} (h : s.Consistent) (hdistinct : s.DistinctNames)
  (ht : t ∈ s.tables)

include h hdistinct ht

/-- A foreign key is found again when its columns and its target are. -/
theorem settle_foreignKeyEntry_iff {fk : ForeignKey} (hfk : fk ∈ t.foreignKeys) :
  (s.foreignKeyEntry t fk).toOption.map
      (fun e => ((t.listing s).copyForeignKey t.id t.path e).settle s.listing.key?) = some fk
    ↔ fk.IsNormal s t
  := by
  have hconsistent := (h.of_mem_tables ht).2.foreignKeys fk hfk
  obtain ⟨T, key, ⟨hT, hkey⟩, hid, howner, hmem⟩ := h.leads hconsistent
  have hentry := foreignKeyEntry_eq_ok (t := t).mpr ⟨T, key, hT, hkey, rfl⟩
  obtain ⟨i, hi⟩ : ∃ i, T.firstKeyOver? key = some i := by
    rw [← Option.isSome_iff_exists, Table.firstKeyOver?, List.findIdx?_isSome, List.any_eq_true]
    exact ⟨key, hmem, decide_eq_true rfl⟩
  have htarget : s.listing.key? ⟨T.path, T.columnNames key.columns⟩ = some ⟨T.id, i⟩ :=
    (h.key?_listing hdistinct (mem_tables.mpr ⟨_, hT⟩) _).trans (congrArg _ hi)
  rw [ForeignKey.isNormal_iff, ← Table.map_place_columnNames_iff (s := s) hconsistent.columns,
    hentry, hT, hkey]
  have hplace : (⟨T.id, i⟩ : KeyId) = key.id ↔ i = key.id.key := by
    rw [← howner]
    exact ⟨fun heq => congrArg KeyId.key heq, fun heq => congrArg (KeyId.mk _) heq⟩
  have htable := hconsistent.table
  obtain ⟨table, name, columns, enforced, target⟩ := fk
  obtain rfl := htable
  obtain rfl := hid
  simp [Except.toOption, PendingKey.settle, PendingKey.resolve, TableListing.copyForeignKey,
    htarget, hi, hplace]

theorem foreignKeys_listing_iff :
  ((t.listing s).foreignKeys.map ((t.listing s).copyForeignKey t.id t.path)).map
      (·.settle s.listing.key?) = t.foreignKeys
    ↔ ∀ fk ∈ t.foreignKeys, fk.IsNormal s t
  := by
  have hsome : ∀ fk ∈ t.foreignKeys, (s.foreignKeyEntry t fk).toOption.isSome := by
    intro fk hfk
    obtain ⟨T, key, ⟨hT, hkey⟩, -⟩ := h.leads ((h.of_mem_tables ht).2.foreignKeys fk hfk)
    have hentry := foreignKeyEntry_eq_ok (t := t).mpr ⟨T, key, hT, hkey, rfl⟩
    rw [toOption_eq_some.mpr hentry, Option.isSome_some]
  rw [List.map_map]
  apply (map_filterMap_eq_self_iff hsome).trans
  apply forall₂_congr
  intro fk hfk
  exact h.settle_foreignKeyEntry_iff hdistinct ht hfk

/-- A table is found again as it is when it is normal. -/
theorem table_listing_iff :
  (t.listing s).table s.listing.key? t.id t.path = t ↔ t.IsNormal s
  := by
  obtain ⟨-, htable⟩ := h.of_mem_tables ht
  have hparts := Table.eq_iff_of_columns (t := t)
    (T := (t.listing s).table s.listing.key? t.id t.path) rfl rfl rfl rfl
    (Table.copyColumns_listing htable.columns) rfl
  rw [hparts, Table.isNormal_iff]
  exact and_congr htable.indexes_listing_iff <| and_congr htable.uniqueKeys_listing_iff <|
    and_congr (Table.primaryKeyPlace_listing_iff htable.primaryKey) <|
    and_congr (h.foreignKeys_listing_iff hdistinct ht) <|
    Table.copyIdentity_listing_iff fun i hi => (htable.identity i hi).1

end Snapshot.Consistent

/-! ### Schemas and catalogs -/

theorem copyDomain_entry {d : Domain} {id : SchemaId} (h : d.schema = id) :
  Walk.copyDomain id d.entry = d
  := by
  obtain rfl := h
  rfl

theorem copySequence_entry {q : Sequence} {id : SchemaId} (h : q.schema = id) :
  Walk.copySequence id q.entry = q
  := by
  obtain rfl := h
  rfl

theorem copyUserType_entry {u : UserType} {id : SchemaId} (h : u.schema = id) :
  Walk.copyUserType id u.entry = u
  := by
  obtain rfl := h
  have hattributes : (u.attributes.map Attribute.entry).map Walk.copyAttribute = u.attributes := by
    rw [List.map_map]
    apply List.map_id
  rw [Walk.copyUserType, UserType.entry, hattributes]

/-- Schemas with the same entry and the same other objects differ in nothing but their tables. -/
theorem Schema.eq_iff_of_objects {S T : Schema} (hid : T.id = S.id) (hname : T.name = S.name)
    (hcomment : T.comment = S.comment) (hdomains : T.domains = S.domains)
    (hsequences : T.sequences = S.sequences) (huserTypes : T.userTypes = S.userTypes) :
  T = S ↔ T.tables = S.tables
  := by
  constructor
  · exact congrArg Schema.tables
  · intro htables
    cases T
    cases S
    congr

section

variable {s : Snapshot} {find : KeyReference → Option KeyId}

/-- A schema is found again as it is when its tables are. -/
theorem Schema.Consistent.schema_listing_iff {catalog : String} {id : SchemaId} {schema : Schema}
    (h : schema.Consistent s catalog id) :
  (schema.listing s).schema find id ⟨catalog, schema.name⟩ = schema
    ↔ ∀ (i : Nat) (t : Table), schema.tables[i]? = some t →
      (t.listing s).table find t.id t.path = t
  := by
  obtain ⟨rfl, hdomains, hsequences, huserTypes, htables⟩ := h
  have htable : ∀ (i : Nat) (t : Table), schema.tables[i]? = some t →
      ((t.listing s).table find (schema.id.table i) ⟨catalog, schema.name, t.name⟩ = t
        ↔ (t.listing s).table find t.id t.path = t) := by
    intro i t ht
    obtain ⟨hid, hpath, -⟩ := htables i t ht
    rw [hid, ← TablePath.table_schemaPath t.path, hpath]
    rfl
  have hparts : (schema.listing s).schema find schema.id ⟨catalog, schema.name⟩ = schema
      ↔ (schema.tables.map (Table.listing s)).zipIdx.map (fun x =>
        x.1.table find (schema.id.table x.2) ⟨catalog, schema.name, x.1.name⟩) = schema.tables := by
    apply Schema.eq_iff_of_objects (S := schema)
      (T := (schema.listing s).schema find schema.id ⟨catalog, schema.name⟩) rfl rfl rfl
    · apply List.map_map.trans
      exact map_eq_self_iff.mpr fun d hd => copyDomain_entry (hdomains d hd)
    · apply List.map_map.trans
      exact map_eq_self_iff.mpr fun q hq => copySequence_entry (hsequences q hq)
    · apply List.map_map.trans
      exact map_eq_self_iff.mpr fun u hu => copyUserType_entry (huserTypes u hu)
  apply (hparts.trans map_zipIdx_eq_self_iff).trans
  exact forall₃_congr htable

/-- A catalog is found again as it is when its schemas are. -/
theorem Catalog.Consistent.catalog_listing_iff {id : CatalogId} {catalog : Catalog}
    (h : catalog.Consistent s id) :
  (catalog.listing s).catalog find id = catalog
    ↔ ∀ (i : Nat) (schema : Schema), catalog.schemas[i]? = some schema →
      (schema.listing s).schema find (id.schema i) ⟨catalog.name, schema.name⟩ = schema
  := by
  obtain ⟨rfl, -⟩ := h
  have hparts : (catalog.listing s).catalog find catalog.id = catalog
      ↔ (catalog.schemas.map (Schema.listing s)).zipIdx.map (fun x =>
        x.1.schema find (catalog.id.schema x.2) ⟨catalog.name, x.1.name⟩) = catalog.schemas := by
    constructor
    · exact congrArg Catalog.schemas
    · exact congrArg (Catalog.mk catalog.id catalog.name catalog.comment)
  exact hparts.trans map_zipIdx_eq_self_iff

end

namespace Snapshot.Consistent

variable {s : Snapshot} (h : s.Consistent) (hdistinct : s.DistinctNames)

include h hdistinct

/-- A snapshot is found again as it is when it is normal. -/
theorem snapshot_listing_iff :
  s.listing.snapshot = s ↔ s.IsNormal
  := by
  have hparts : s.listing.snapshot = s
      ↔ (s.catalogs.map (Catalog.listing s)).zipIdx.map
        (fun x => x.1.catalog s.listing.key? ⟨x.2⟩) = s.catalogs := by
    constructor
    · exact congrArg Snapshot.catalogs
    · exact congrArg Snapshot.mk
  apply (hparts.trans map_zipIdx_eq_self_iff).trans
  constructor
  · intro hall t ht
    obtain ⟨id, hid⟩ := mem_tables.mp ht
    obtain ⟨C, S, hC, hS, hk⟩ := table?_eq_some.mp hid
    have hcatalog := (h _ C hC).catalog_listing_iff.mp (hall _ C hC) _ S hS
    apply (h.table_listing_iff hdistinct ht).mp
    exact ((h _ C hC).schemas _ S hS).schema_listing_iff.mp hcatalog _ t hk
  · intro hnormal i C hC
    apply (h i C hC).catalog_listing_iff.mpr
    intro j S hS
    apply ((h i C hC).schemas j S hS).schema_listing_iff.mpr
    intro k t hk
    have ht : t ∈ s.tables := mem_tables.mpr ⟨⟨i, j, k⟩, table?_eq_some.mpr ⟨C, S, hC, hS, hk⟩⟩
    exact (h.table_listing_iff hdistinct ht).mpr (hnormal t ht)

end Snapshot.Consistent

end DetachedSchema
