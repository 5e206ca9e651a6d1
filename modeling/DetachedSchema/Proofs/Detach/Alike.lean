import DetachedSchema.Proofs.Detach.Answers
import DetachedSchema.Proofs.Detach.Recorded

/-!
# Answers in another order

Answers that list the same nodes, each level of them in any order, and that agree on all else.  They
lead to the same paths, and the same tables are listed in them.
-/

namespace DetachedSchema

/-! ### Answers that are alike -/

namespace Query

/-- Two answers to a question are alike: nodes may be listed in another order, but nothing else may
differ. -/
def Alike : (q : Query) → q.Answer → q.Answer → Prop
  | .catalogs | .schemas _ | .tables _ => List.Perm
  | .domains _ | .sequences _ | .userTypes _ | .columns _ | .indexes _ | .uniqueKeys _
  | .primaryKey _ | .foreignKeys _ | .checks _ => Eq

instance : (q : Query) → (x y : q.Answer) → Decidable (q.Alike x y)
  | .catalogs, x, y | .schemas _, x, y | .tables _, x, y => inferInstanceAs (Decidable (x.Perm y))
  | .domains _, x, y | .sequences _, x, y | .userTypes _, x, y | .columns _, x, y
  | .indexes _, x, y | .uniqueKeys _, x, y | .primaryKey _, x, y | .foreignKeys _, x, y
  | .checks _, x, y => inferInstanceAs (Decidable (x = y))

/-- Two results of a question are alike: both are faults, or both are answers that are alike. -/
def AlikeResults (q : Query) : Except Fault q.Answer → Except Fault q.Answer → Prop
  | .ok x, .ok y => q.Alike x y
  | .error _, .error _ => True
  | _, _ => False

instance (q : Query) : (r r' : Except Fault q.Answer) → Decidable (q.AlikeResults r r')
  | .ok x, .ok y => inferInstanceAs (Decidable (q.Alike x y))
  | .error _, .error _ => isTrue trivial
  | .ok _, .error _ | .error _, .ok _ => isFalse id

variable {q : Query}

theorem Alike.symm {x y : q.Answer} (h : q.Alike x y) :
  q.Alike y x
  := by
  cases q with
  | catalogs | schemas _ | tables _ => exact List.Perm.symm h
  | _ => exact Eq.symm h

variable {r r' : Except Fault q.Answer}

theorem AlikeResults.symm (h : q.AlikeResults r r') :
  q.AlikeResults r' r
  := by
  cases r with
  | ok x =>
    cases r' with
    | ok y => exact Alike.symm h
    | error fault => exact h
  | error fault =>
    cases r' with
    | ok y => exact h
    | error fault' => exact h

theorem AlikeResults.exists_ok (h : q.AlikeResults r r') (x : q.Answer) (hx : r = .ok x) :
  ∃ y, r' = .ok y ∧ q.Alike x y
  := by
  obtain rfl := hx
  cases r' with
  | ok y => exact ⟨y, rfl, h⟩
  | error fault => cases h

end Query

namespace Answers

/-- Whatever is listed is answered alike. -/
def Reordered (a b : Answers) : Prop := ∀ q, a.Reaches q → q.AlikeResults (a q) (b q)

/-- Siblings are listed with names of their own. -/
structure DistinctNames (a : Answers) : Prop where
  catalogs : ∀ entries, a .catalogs = .ok entries → (entries.map CatalogEntry.name).Nodup
  schemas : ∀ name entries, a.HasCatalog name → a (.schemas name) = .ok entries →
    (entries.map SchemaEntry.name).Nodup
  tables : ∀ path entries, a.HasSchema path → a (.tables path) = .ok entries →
    (entries.map TableEntry.name).Nodup

section

variable {α : Type} {x y : Except Fault (List α)}
  (h : ∀ entries, x = .ok entries → ∃ entries', y = .ok entries' ∧ entries.Perm entries')

include h

/-- An entry is listed in any order. -/
theorem exists_entry_of_alike {P : α → Prop} :
  (∃ entries, x = .ok entries ∧ ∃ e ∈ entries, P e)
    → ∃ entries, y = .ok entries ∧ ∃ e ∈ entries, P e
  := by
  rintro ⟨entries, hx, e, he, hP⟩
  obtain ⟨entries', hy, hperm⟩ := h entries hx
  exact ⟨entries', hy, e, hperm.mem_iff.mp he, hP⟩

/-- Names are distinct in any order. -/
theorem nodup_of_alike {name : α → String}
    (hnodup : ∀ entries, y = .ok entries → (entries.map name).Nodup) (entries : List α)
    (hx : x = .ok entries) :
  (entries.map name).Nodup
  := by
  obtain ⟨entries', hy, hperm⟩ := h entries hx
  exact (hperm.map name).nodup_iff.mpr (hnodup entries' hy)

end

namespace Reordered

variable {a b : Answers} (h : a.Reordered b)

include h

theorem hasCatalog_iff {name : String} :
  a.HasCatalog name ↔ b.HasCatalog name
  := by
  have halike := h .catalogs trivial
  constructor
  · apply exists_entry_of_alike halike.exists_ok
  · apply exists_entry_of_alike halike.symm.exists_ok

theorem hasSchema_iff {p : SchemaPath} :
  a.HasSchema p ↔ b.HasSchema p
  := by
  rw [HasSchema, HasSchema, ← h.hasCatalog_iff]
  apply and_congr_right
  intro hp
  have halike := h (.schemas p.catalog) hp
  constructor
  · apply exists_entry_of_alike halike.exists_ok
  · apply exists_entry_of_alike halike.symm.exists_ok

theorem hasTable_iff {p : TablePath} :
  a.HasTable p ↔ b.HasTable p
  := by
  rw [HasTable, HasTable, ← h.hasSchema_iff]
  apply and_congr_right
  intro hp
  have halike := h (.tables p.schemaPath) hp
  constructor
  · apply exists_entry_of_alike halike.exists_ok
  · apply exists_entry_of_alike halike.symm.exists_ok

/-- The same paths are reached. -/
theorem reaches_iff {q : Query} :
  a.Reaches q ↔ b.Reaches q
  := by
  cases q with
  | catalogs => exact Iff.rfl
  | schemas name => exact h.hasCatalog_iff
  | domains p | tables p | sequences p | userTypes p => exact h.hasSchema_iff
  | columns p | indexes p | uniqueKeys p | primaryKey p | foreignKeys p | checks p =>
    exact h.hasTable_iff

theorem symm :
  b.Reordered a
  := fun q hq => (h q (h.reaches_iff.mpr hq)).symm

theorem distinctNames (ha : a.DistinctNames) :
  b.DistinctNames
  := by
  constructor
  case catalogs =>
    apply nodup_of_alike (h.symm .catalogs trivial).exists_ok ha.catalogs
  case schemas =>
    intro name entries hname
    have hnodup := fun entries => ha.schemas name entries (h.hasCatalog_iff.mpr hname)
    apply nodup_of_alike (h.symm (.schemas name) hname).exists_ok hnodup
  case tables =>
    intro path entries hpath
    have hnodup := fun entries => ha.tables path entries (h.hasSchema_iff.mpr hpath)
    apply nodup_of_alike (h.symm (.tables path) hpath).exists_ok hnodup

end Reordered

end Answers

/-! ### Tables that are listed -/

/-- A table is listed under the path, and this is all that is answered about it. -/
structure Answers.Lists (a : Answers) (path : TablePath) (t : TableListing) : Prop where
  schema : a.HasSchema path.schemaPath
  entry : ∃ entries, a (.tables path.schemaPath) = .ok entries ∧ t.entry ∈ entries
  name : t.name = path.table
  records : t.Records a.given path

theorem Answers.Lists.hasTable {a : Answers} {path : TablePath} {t : TableListing}
    (h : a.Lists path t) :
  a.HasTable path
  := by
  obtain ⟨entries, hentries, hmem⟩ := h.entry
  exact ⟨h.schema, entries, hentries, t.entry, hmem, h.name⟩

/-- The same tables are listed. -/
theorem Answers.Reordered.lists {a b : Answers} (h : a.Reordered b) {path : TablePath}
    {t : TableListing} (ht : a.Lists path t) :
  b.Lists path t
  := by
  constructor
  case schema => exact h.hasSchema_iff.mp ht.schema
  case entry =>
    obtain ⟨entries, hentries, hmem⟩ := ht.entry
    obtain ⟨entries', hentries', hperm⟩ :=
      (h (.tables path.schemaPath) ht.schema).exists_ok _ hentries
    exact ⟨entries', hentries', (List.Perm.mem_iff hperm).mp hmem⟩
  case name => exact ht.name
  case records =>
    apply ht.records.mono
    intro q hq x hx
    have hreached : a.Reaches q ∧ ∀ y, q.Alike x y → x = y := by
      simp only [TablePath.questions, List.mem_cons, List.not_mem_nil, or_false] at hq
      obtain rfl | rfl | rfl | rfl | rfl | rfl := hq
      all_goals exact ⟨ht.hasTable, fun _ => id⟩
    obtain ⟨y, hy, halike⟩ := (h q hreached.1).exists_ok x hx
    rw [Answers.given, hy, hreached.2 y halike]

namespace Listing

section

variable {a : Answers} {l : Listing} (h : l.Records a.given)

include h

/-- The tables that are listed are those of the listing that records the answers. -/
theorem Records.lists_iff {path : TablePath} {t : TableListing} :
  a.Lists path t ↔ ∃ id, ⟨id, path, t⟩ ∈ l.placed
  := by
  constructor
  · rintro ⟨hschema, ⟨entries, hentries, hmem⟩, hname, hrecords⟩
    obtain ⟨c, hc, s, hs, hpath⟩ := h.hasSchema_iff.mp hschema
    obtain rfl : path = (⟨c.name, s.name⟩ : SchemaPath).table t.name := by
      rw [← hpath, hname, TablePath.table_schemaPath]
    have hs' := (h.below c hc).below s hs
    obtain rfl := Except.ok.inj (hs'.tables.symm.trans hentries)
    -- The entry is that of a table of the schema, which records the same answers.
    obtain ⟨t', ht', hentry⟩ := List.mem_map.mp hmem
    have hbelow := hs'.below t' ht'
    rw [(TableEntry.mk.inj hentry).1] at hbelow
    obtain rfl := hbelow.eq hrecords hentry
    obtain ⟨i, hc⟩ := List.getElem?_of_mem hc
    obtain ⟨j, hs⟩ := List.getElem?_of_mem hs
    obtain ⟨k, ht⟩ := List.getElem?_of_mem ht'
    exact ⟨_, mem_placed_of_getElem? hc hs ht⟩
  · rintro ⟨id, hp⟩
    have hrecords := h.placed hp
    have htable := hasTable_of_mem_placed h hp
    obtain ⟨c, i, s, j, t', k, hc, hs, ht, heq⟩ := exists_of_mem_placed hp
    obtain ⟨rfl, rfl, rfl⟩ := PlacedTable.mk.inj heq
    have hs' := (h.below c (List.mem_of_getElem? hc)).below s (List.mem_of_getElem? hs)
    have hentry := List.mem_map_of_mem (f := TableListing.entry) (List.mem_of_getElem? ht)
    exact ⟨htable.1, ⟨_, hs'.tables, hentry⟩, rfl, hrecords⟩

/-- Names are distinct in the answers when they are in the listing that records them. -/
theorem Records.distinctNames_iff :
  a.DistinctNames ↔ l.DistinctNames
  := by
  constructor
  · rintro ⟨hcatalogs, hschemas, htables⟩
    constructor
    case catalogs =>
      have hnames := hcatalogs _ h.catalogs
      rw [List.map_map] at hnames
      exact hnames
    case schemas =>
      intro c hc
      have hnames := hschemas c.name _ (h.hasCatalog_iff.mpr ⟨c, hc, rfl⟩) (h.below c hc).schemas
      rw [List.map_map] at hnames
      exact hnames
    case tables =>
      intro c hc s hs
      have hnames := htables ⟨c.name, s.name⟩ _ (h.hasSchema_iff.mpr ⟨c, hc, s, hs, rfl⟩)
        ((h.below c hc).below s hs).tables
      rw [List.map_map] at hnames
      exact hnames
  · rintro ⟨hcatalogs, hschemas, htables⟩
    constructor
    case catalogs =>
      intro entries hentries
      obtain rfl := Except.ok.inj (h.catalogs.symm.trans hentries)
      rw [List.map_map]
      exact hcatalogs
    case schemas =>
      intro name entries hname hentries
      obtain ⟨c, hc, rfl⟩ := h.hasCatalog_iff.mp hname
      obtain rfl := Except.ok.inj ((h.below c hc).schemas.symm.trans hentries)
      rw [List.map_map]
      exact hschemas c hc
    case tables =>
      intro path entries hpath hentries
      obtain ⟨c, hc, s, hs, rfl⟩ := h.hasSchema_iff.mp hpath
      obtain rfl := Except.ok.inj (((h.below c hc).below s hs).tables.symm.trans hentries)
      rw [List.map_map]
      exact htables c hc s hs

end

end Listing

end DetachedSchema
