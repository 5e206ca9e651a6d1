import DetachedSchema.Listing.Basic
import DetachedSchema.Proofs.Snapshot.Navigation
import DetachedSchema.Snapshot.Stats
import Mathlib.Algebra.Ring.Nat

/-!
# Foreign keys by the tables that they refer to

In a consistent snapshot no two tables have one id, and every foreign key refers to one of the
tables.  So the foreign keys that refer to each table, table by table, are all foreign keys of the
snapshot, each of them once.
-/

namespace DetachedSchema

namespace Snapshot

variable {s : Snapshot}

namespace Consistent

variable (h : s.Consistent)

include h

/-- No two tables have one id. -/
theorem nodup_ids :
  (s.tables.map Table.id).Nodup
  := by
  -- The id of a table tells the places of its catalog, of its schema and of the table itself.
  simp only [tables, schemas, List.flatMap_assoc, List.map_eq_flatMap]
  apply nodup_flatMap_of_places TableId.catalog
  · intro i catalog hcatalog
    apply nodup_flatMap_of_places TableId.schema
    · intro j schema hschema
      apply nodup_flatMap_of_places TableId.table
      · intro k t _
        apply List.nodup_singleton
      · intro k t ht
        rw [List.forall_mem_singleton, (h.of_getElem? hcatalog hschema ht).1]
    · intro j schema hschema
      simp only [List.forall_mem_flatMap, List.forall_mem_singleton]
      intro t ht
      obtain ⟨k, ht⟩ := List.getElem?_of_mem ht
      rw [(h.of_getElem? hcatalog hschema ht).1]
  · intro i catalog hcatalog
    simp only [List.forall_mem_flatMap, List.forall_mem_singleton]
    intro schema hschema t ht
    obtain ⟨j, hschema⟩ := List.getElem?_of_mem hschema
    obtain ⟨k, ht⟩ := List.getElem?_of_mem ht
    rw [(h.of_getElem? hcatalog hschema ht).1]

/-- A foreign key refers to a table of the snapshot when it holds the id of that table. -/
theorem referencedTable?_eq_some {fk : ForeignKey} {t : Table} (ht : t ∈ s.tables) :
  s.referencedTable? fk = some t ↔ fk.key.table = t.id
  := by
  constructor
  · intro hfk
    rw [(h.of_table? hfk).1]
  · intro hid
    rw [referencedTable?, hid]
    exact (h.of_mem_tables ht).1

/-- Every foreign key holds the id of a table. -/
theorem table_mem_ids {fk : ForeignKey} (hfk : fk ∈ s.foreignKeys) :
  fk.key.table ∈ s.tables.map Table.id
  := by
  obtain ⟨t, ht, hfk⟩ := List.mem_flatMap.mp hfk
  obtain ⟨-, T, key, ⟨hT, -⟩, -⟩ := (h.navigable ht).foreignKeys fk hfk
  rw [← (h.of_table? hT).1]
  apply List.mem_map_of_mem
  apply mem_tables.mpr ⟨_, hT⟩

/-- The foreign keys that refer to a table are those that lead to it, in the order of the tables
that declare them. -/
theorem referencing_eq {t : Table} (ht : t ∈ s.tables) :
  s.referencing t.id
    = s.tables.flatMap fun u => u.foreignKeys.filter fun fk => s.referencedTable? fk = some t
  := by
  rw [referencing, foreignKeys, List.filter_flatMap]
  apply List.flatMap_congr
  intro u _
  apply List.filter_congr
  intro fk _
  rw [decide_eq_decide]
  exact (h.referencedTable?_eq_some ht).symm

/-- Table by table, all foreign keys refer to a table, each of them once. -/
theorem referencing_perm :
  (s.tables.flatMap fun t => s.referencing t.id).Perm s.foreignKeys
  := by
  have hgathered := flatMap_filter_perm (fun fk : ForeignKey => fk.key.table) h.nodup_ids
    fun fk hfk => h.table_mem_ids hfk
  rwa [List.flatMap_map] at hgathered

/-- No foreign key refers to a table that is not there. -/
theorem referencing_eq_nil {id : TableId} (hid : s.table? id = none) :
  s.referencing id = []
  := by
  apply List.filter_eq_nil_iff.mpr
  intro fk hfk htable
  obtain ⟨t, ht, heq⟩ := List.mem_map.mp (h.table_mem_ids hfk)
  have htable : fk.key.table = id := of_decide_eq_true htable
  rw [← htable, ← heq, (h.of_mem_tables ht).1] at hid
  cases hid

end Consistent

end Snapshot

/-- The foreign keys of a snapshot that passes the check are parted among its tables: each is listed
under the table that it refers to and under no other, in the order of the tables that declare them,
and as often as it is declared.  So all lists together are as long as there are foreign keys.  Under
an id that is none of a table of the snapshot nothing is listed. -/
theorem referencing_parts (s : Snapshot) (hs : s.validate = .ok ()) :
  (∀ t ∈ s.tables, s.referencing t.id
    = s.tables.flatMap fun u => u.foreignKeys.filter fun fk => s.referencedTable? fk = some t)
  ∧ (s.tables.flatMap fun t => s.referencing t.id).Perm s.foreignKeys
  ∧ (s.tables.map fun t => (s.referencing t.id).length).sum = s.stats.foreignKeys
  ∧ ∀ id, s.table? id = none → s.referencing id = []
  := by
  have hconsistent := Snapshot.validate_eq_ok.mp hs
  have hperm := hconsistent.referencing_perm
  refine ⟨fun t ht => hconsistent.referencing_eq ht, hperm, ?_,
    fun id hid => hconsistent.referencing_eq_nil hid⟩
  have hlength := hperm.length_eq
  rw [List.length_flatMap] at hlength
  exact hlength

/-- Accounts with parents, and in another catalog entries that declare one foreign key twice. -/
def Listing.ledger : Listing where
  catalogs :=
    let id : ColumnEntry := { name := "id", dataType := { name := "int" } }
    let fk (name : String) : ForeignKeyEntry :=
      ⟨name, ["id"], true, ⟨⟨"books", "s", "accounts"⟩, ["id"]⟩⟩
    let entries : TableListing :=
      { name := "entries", columns := [id], foreignKeys := [fk "account", fk "account"] }
    let accounts : TableListing :=
      { name := "accounts"
        columns := [id]
        uniqueKeys := [⟨"pk", ["id"], true⟩]
        foreignKeys := [fk "parent"] }
    [{ name := "journal", schemas := [{ name := "s", tables := [entries] }] },
     { name := "books", schemas := [{ name := "s", tables := [accounts] }] }]

/-- All three foreign keys are listed under the accounts, and none under the entries or under an id
that is none of theirs. -/
theorem referencing_parts_ledger :
  let s := Listing.ledger.snapshot
  s.validate = .ok ()
  ∧ s.tables.map (fun t => (s.referencing t.id).map ForeignKey.name)
    = [[], ["account", "account", "parent"]]
  ∧ (s.tables.map fun t => (s.referencing t.id).length).sum = s.stats.foreignKeys
  ∧ s.referencing ⟨0, 0, 1⟩ = []
  := by
  intro s
  have hs : s.validate = .ok () := by decide
  obtain ⟨-, -, hsum, hnone⟩ := referencing_parts s hs
  exact ⟨hs, by decide, hsum, hnone _ (by decide)⟩

end DetachedSchema
