import DetachedSchema.Proofs.Detach.Copies
import DetachedSchema.Proofs.Detach.Resolve

/-!
# Resolving in place

The second phase may as well be carried out on the copied tables themselves: for each foreign key
that was put aside one goes to the place that the id of its table says, and there the resolved key
is added to the keys that the table already has.  One may go astray on the way, when there is no
catalog, no schema or no table at the place; `OptionT` tells this apart from a fault.  On the draft
of a walk one never goes astray, so both ways of resolving are the same script.
-/

namespace DetachedSchema

/-- What is found at a place, where there may be nothing. -/
def fetch {m : Type → Type} [Monad m] {α : Type} (x : Option α) : OptionT m α := OptionT.mk (pure x)

namespace Detach

/-- Adds a foreign key to the table at a place. -/
def push (id : TableId) (fk : ForeignKey) (catalogs : List Catalog) : List Catalog :=
  catalogs.modify id.catalog fun c =>
    { c with
      schemas := c.schemas.modify id.schema fun s =>
        { s with
          tables := s.tables.modify id.table fun t =>
            { t with foreignKeys := t.foreignKeys ++ [fk] } } }

/-- Goes to the table of a foreign key, whose path is told, and adds the resolved key to it. -/
def resolveAt (index : KeyIndex) (catalogs : List Catalog) (k : PendingKey) :
    OptionT Script (List Catalog) := do
  let t ← fetch (Snapshot.table? ⟨catalogs⟩ k.table)
  let fk ← OptionT.lift (resolve index { k with path := t.path })
  return push k.table fk catalogs

/-- The second phase, table by table and in place. -/
def resolveInPlace (draft : Draft (List Catalog)) : OptionT Script Snapshot := do
  let index := KeyIndex.ofTables (Snapshot.tables ⟨draft.content⟩)
  OptionT.lift (Script.log (.indexedKeys index.size))
  let catalogs ← draft.pending.foldlM (resolveAt index) draft.content
  return ⟨catalogs⟩

/-- The copy of an index, where the column is the first of the positions that are found for the one
name. -/
def copyIndexByFirst (t : Table) (e : IndexEntry) : OptionT (Except Fault) Index := do
  let columns ← e.columns.mapM fun c => do
    let positions ← OptionT.lift ([c.name].mapM (Walk.position t.path t.columns s!"Index {e.name}"))
    return ⟨← fetch positions[0]?, c.order⟩
  return ⟨t.id, e.name, columns, e.unique⟩

/-! ### Nowhere astray -/

theorem fetch_some {m : Type → Type} [Monad m] {α : Type} {a : α} :
  (fetch (some a) : OptionT m α) = pure a
  := rfl

/-- A traversal goes nowhere astray when its steps do not. -/
theorem mapM_lift {m : Type → Type} [Monad m] [LawfulMonad m] {α β : Type} {f : α → m β}
    {f' : α → OptionT m β} (h : ∀ x, f' x = OptionT.lift (f x)) {l : List α} :
  l.mapM f' = OptionT.lift (l.mapM f)
  := by
  induction l with
  | nil => rw [List.mapM_nil, List.mapM_nil, OptionT.lift_pure]
  | cons x l ih => simp only [List.mapM_cons, h, ih, OptionT.lift_bind, OptionT.lift_pure]

/-- For one name there is one position, so there is a first. -/
theorem copyIndexByFirst_eq (t : Table) (e : IndexEntry) :
  copyIndexByFirst t e = OptionT.lift (Walk.copyIndex t e)
  := by
  have hcolumn : ∀ c : SortedColumnEntry,
      (do
        let positions ← OptionT.lift
          ([c.name].mapM (Walk.position t.path t.columns s!"Index {e.name}"))
        return (⟨← fetch positions[0]?, c.order⟩ : IndexColumn) :
          OptionT (Except Fault) IndexColumn)
      = OptionT.lift (do
        return ⟨← Walk.position t.path t.columns s!"Index {e.name}" c.name, c.order⟩) := by
    intro c
    simp only [List.mapM_cons, List.mapM_nil, OptionT.lift_bind, OptionT.lift_pure, bind_assoc,
      pure_bind, List.getElem?_cons_zero, fetch_some]
  rw [copyIndexByFirst, mapM_lift hcolumn, Walk.copyIndex, OptionT.lift_bind]
  simp only [OptionT.lift_pure]

/-! ### Tables at their places -/

/-- Where the image of one member is changed, the list is mapped in another way. -/
theorem modify_map {α β : Type} {l : List α} {g g' : α → β} {f : β → β} {i : Nat}
    (hplace : ∀ x, l[i]? = some x → f (g x) = g' x)
    (hothers : ∀ j x, l[j]? = some x → j ≠ i → g x = g' x) :
  (l.map g).modify i f = l.map g'
  := by
  apply List.ext_getElem?
  intro j
  rw [List.getElem?_modify, List.getElem?_map, List.getElem?_map]
  cases hx : l[j]? with
  | none => rfl
  | some x =>
    by_cases hj : i = j
    · subst hj
      simpa using hplace x hx
    · simpa [hj] using hothers j x hx (Ne.symm hj)

theorem attachTable_nil {t : Table} :
  attachTable [] t = t
  := by simp [attachTable]

theorem attach_nil {c : Catalog} :
  attach [] c = c
  := by
  have htables : ∀ s : Schema, { s with tables := s.tables.map (attachTable []) } = s := by
    intro s
    rw [map_eq_self_iff.mpr fun t _ => attachTable_nil]
  rw [attach, map_eq_self_iff.mpr fun s _ => htables s]

section

variable {keys : List ForeignKey} {fk : ForeignKey} {t : Table}

theorem attachTable_append_self (h : fk.table = t.id) :
  attachTable (keys ++ [fk]) t
    = { attachTable keys t with foreignKeys := (attachTable keys t).foreignKeys ++ [fk] }
  := by simp [attachTable, h]

theorem attachTable_append_other (h : fk.table ≠ t.id) :
  attachTable (keys ++ [fk]) t = attachTable keys t
  := by simp [attachTable, h]

/-- Tables of other ids are given nothing. -/
theorem map_attachTable_append_other {tables : List Table} (h : ∀ t ∈ tables, fk.table ≠ t.id) :
  tables.map (attachTable (keys ++ [fk])) = tables.map (attachTable keys)
  := List.map_congr_left fun t ht => attachTable_append_other (h t ht)

end

/-- An id leads to the table with the foreign keys that are its own. -/
theorem table?_attach {catalogs : List Catalog} {keys : List ForeignKey} {id : TableId} :
  Snapshot.table? ⟨catalogs.map (attach keys)⟩ id
    = (Snapshot.table? ⟨catalogs⟩ id).map (attachTable keys)
  := by
  simp only [Snapshot.table?, Snapshot.schema?, Snapshot.catalog?, List.getElem?_map]
  cases catalogs[id.schemaId.catalogId.index]? with
  | none => rfl
  | some c =>
    simp only [Option.map_some, Option.bind_eq_bind, Option.bind_some, attach, List.getElem?_map]
    cases c.schemas[id.schemaId.schema]? with
    | none => rfl
    | some s => simp only [Option.map_some, Option.bind_some, List.getElem?_map]

section

variable {catalogs : List Catalog}
  (hplaces : ∀ id t, Snapshot.table? ⟨catalogs⟩ id = some t → t.id = id)

include hplaces

/-- Where every table stands at the place of its id, a key that is added at a place is attached to
the table with that id and to no other. -/
theorem push_attach {keys : List ForeignKey} {fk : ForeignKey} :
  push fk.table fk (catalogs.map (attach keys)) = catalogs.map (attach (keys ++ [fk]))
  := by
  have hid : ∀ {i j k : Nat} {c : Catalog} {s : Schema} {t : Table}, catalogs[i]? = some c
      → c.schemas[j]? = some s → s.tables[k]? = some t → t.id = ⟨i, j, k⟩ := by
    intro i j k c s t hc hs ht
    apply hplaces ⟨i, j, k⟩ t (Snapshot.table?_eq_some.mpr ⟨c, s, hc, hs, ht⟩)
  -- At another place the table has another id, whether table, schema or catalog differ.
  apply modify_map
  · intro c hc
    rw [attach, attach]
    congr 1
    apply modify_map
    · intro s hs
      congr 1
      apply modify_map
      · intro t ht
        rw [attachTable_append_self (hid hc hs ht).symm]
      · intro k t ht hk
        rw [attachTable_append_other]
        rw [hid hc hs ht]
        exact fun hfk => hk (congrArg TableId.table hfk).symm
    · intro j s hs hj
      congr 1
      apply (map_attachTable_append_other _).symm
      intro t ht
      obtain ⟨k, ht⟩ := List.getElem?_of_mem ht
      rw [hid hc hs ht]
      exact fun hfk => hj (congrArg TableId.schema hfk).symm
  · intro i c hc hi
    rw [attach, attach]
    congr 1
    apply List.map_congr_left
    intro s hs
    obtain ⟨j, hs⟩ := List.getElem?_of_mem hs
    congr 1
    apply (map_attachTable_append_other _).symm
    intro t ht
    obtain ⟨k, ht⟩ := List.getElem?_of_mem ht
    rw [hid hc hs ht]
    exact fun hfk => hi (congrArg TableId.catalog hfk).symm

/-- One step: the foreign key is resolved, and attached to those before. -/
theorem resolveAt_attach {index : KeyIndex} {keys : List ForeignKey} {k : PendingKey} {t : Table}
    (ht : Snapshot.table? ⟨catalogs⟩ k.table = some t) (hpath : k.path = t.path) :
  resolveAt index (catalogs.map (attach keys)) k
    = OptionT.lift (do return catalogs.map (attach (keys ++ [← resolve index k])))
  := by
  -- What a foreign key resolves to belongs to the same table.
  have hpush : ∀ key, push k.table (k.resolve key) (catalogs.map (attach keys))
      = catalogs.map (attach (keys ++ [k.resolve key])) := by
    intro key
    apply push_attach hplaces
  have hk : { k with path := (attachTable keys t).path } = k := by
    rw [attachTable, ← hpath]
  rw [resolveAt, table?_attach, ht, Option.map_some, fetch_some, pure_bind, hk, resolve]
  cases index.find? k.references with
  | none => rfl
  | some key =>
    by_cases hlength : k.columns.length = k.references.columns.length
    · simp only [if_pos hlength, bind_assoc, pure_bind, OptionT.lift_bind, OptionT.lift_pure, hpush]
    · simp only [if_neg hlength]
      rfl

/-- All steps: the foreign keys are resolved one by one, and attached together. -/
theorem foldlM_resolveAt {index : KeyIndex} {pending : List PendingKey} {keys : List ForeignKey}
    (hpending : ∀ k ∈ pending, ∃ t, Snapshot.table? ⟨catalogs⟩ k.table = some t ∧ k.path = t.path) :
  pending.foldlM (resolveAt index) (catalogs.map (attach keys))
    = OptionT.lift (do return catalogs.map (attach (keys ++ (← pending.mapM (resolve index)))))
  := by
  -- The induction needs the foreign keys that are attached already.
  induction pending generalizing keys with
  | nil =>
    rw [List.foldlM_nil, List.mapM_nil, pure_bind, List.append_nil, OptionT.lift_pure]
  | cons k pending ih =>
    obtain ⟨⟨t, ht, hpath⟩, hrest⟩ := List.forall_mem_cons.mp hpending
    rw [List.foldlM_cons, resolveAt_attach hplaces ht hpath]
    simp only [OptionT.lift_bind, OptionT.lift_pure, bind_assoc, pure_bind, ih hrest,
      List.mapM_cons, List.append_assoc, List.singleton_append]

end

/-! ### Drafts of walks -/

section

variable {σ : Type} {source : Source σ} {draft : Draft (List Catalog)} {copies : List (Draft Table)}
  (h : Walk.copyAll.Ends source draft)
  (htables : Snapshot.tables ⟨draft.content⟩ = copies.map Draft.content)
  (hpending : draft.pending = copies.flatMap Draft.pending)
  (hcopies : ∀ d ∈ copies, d.IsCopy source)

include h htables hcopies

/-- The id of a foreign key that was put aside leads to the table whose copy put it aside. -/
theorem of_mem_pending {d : Draft Table} (hd : d ∈ copies) {k : PendingKey} (hk : k ∈ d.pending) :
  Snapshot.table? ⟨draft.content⟩ k.table = some d.content
    ∧ k.path = d.content.path ∧ d.content.InRange k.columns
  := by
  obtain ⟨htable, hpath, hcolumns⟩ := (hcopies d hd).of_mem_pending hk
  have hmem : d.content ∈ Snapshot.tables ⟨draft.content⟩ := by
    rw [htables]
    apply List.mem_map_of_mem hd
  rw [htable]
  exact ⟨Walk.table?_of_mem h hmem, hpath, hcolumns⟩

include hpending

/-- Resolving in place goes nowhere astray. -/
theorem resolveInPlace_eq :
  resolveInPlace draft = OptionT.lift (resolveAll draft)
  := by
  have hplaces : ∀ k ∈ draft.pending,
      ∃ t, Snapshot.table? ⟨draft.content⟩ k.table = some t ∧ k.path = t.path := by
    intro k hk
    rw [hpending] at hk
    obtain ⟨d, hd, hk⟩ := List.mem_flatMap.mp hk
    obtain ⟨htable, hpath, -⟩ := of_mem_pending h htables hcopies hd hk
    exact ⟨d.content, htable, hpath⟩
  have hsteps : ∀ index : KeyIndex, draft.pending.foldlM (resolveAt index) draft.content
      = OptionT.lift (do
        return draft.content.map (attach (← draft.pending.mapM (resolve index)))) := by
    intro index
    have hattached : draft.content.map (attach []) = draft.content :=
      map_eq_self_iff.mpr fun c _ => attach_nil
    conv_lhs => rw [← hattached]
    apply foldlM_resolveAt (fun _ _ => Walk.id_of_table? h) hplaces
  rw [resolveInPlace, resolveAll]
  simp only [hsteps, OptionT.lift_bind, OptionT.lift_pure, bind_assoc, pure_bind]

/-- The foreign keys that are attached to a copy are those that were put aside with it. -/
theorem attachTable_copy {find : KeyReference → Option KeyId} {d : Draft Table} (hd : d ∈ copies) :
  attachTable (draft.pending.map (·.settle find)) d.content
    = { d.content with foreignKeys := d.pending.map (·.settle find) }
  := by
  have hnodup : (copies.map (·.content.id)).Nodup := by
    have hids := Walk.nodup_ids h
    rwa [htables, List.map_map] at hids
  have hown : draft.pending.filter (·.table = d.content.id) = d.pending := by
    rw [hpending]
    apply filter_flatMap_of_nodup hnodup _ hd
    intro d' hd' k hk
    exact ((hcopies d' hd').of_mem_pending hk).1
  rw [attachTable_settle hown, (hcopies d hd).bare, List.nil_append]

/-- Every table gets the foreign keys that were put aside with it, resolved, and no others. -/
theorem tables_of_resolveAll {A : Possible} {find : KeyReference → Option KeyId}
    (hfind : (KeyIndex.ofTables (Snapshot.tables ⟨draft.content⟩)).find? = find) {s : Snapshot}
    (hs : (resolveAll draft).CanEnd A s) :
  (∀ k ∈ draft.pending, k.Resolves find)
  ∧ s.tables = copies.map fun d =>
    { d.content with foreignKeys := d.pending.map (·.settle find) }
  := by
  simp only [resolveAll, Script.bind_eq, Script.pure_eq_done, Script.canEnd_bind, Script.canEnd_log,
    Script.canEnd_done, Script.canEnd_mapM fun _ _ => canEnd_resolve, hfind, exists_const,
    true_and] at hs
  obtain ⟨_, ⟨hresolves, rfl⟩, rfl⟩ := hs
  use hresolves
  rw [tables_attach, htables, List.map_map]
  apply List.map_congr_left
  intro d hd
  apply attachTable_copy h htables hpending hcopies hd

end

end Detach

/-- Whatever a source answers, and however it changes while it is read, a draft with which a walk
ends is put together from copies of tables, and the foreign keys that were put aside come in the
order of these copies and of the answers that declared them.  The id of such a foreign key leads to
the table whose copy put it aside, and its columns are columns of that table.  So resolving in place
goes nowhere astray, nor does copying an index by the first position of each name, and a resolved
key is added to the table that declared it. -/
theorem resolveInPlace_walked {σ : Type} (source : Source σ) (st : σ) {draft : Draft (List Catalog)}
    (h : (Walk.copyAll.run source st).1.result = .ok draft) :
  let graph : Snapshot := ⟨draft.content⟩
  let find := (KeyIndex.ofTables graph.tables).find?
  (∃ copies : List (Draft Table),
    graph.tables = copies.map Draft.content ∧ draft.pending = copies.flatMap Draft.pending
    ∧ (∀ d ∈ copies, d.IsCopy source ∧ ∀ k ∈ d.pending, graph.table? k.table = some d.content
      ∧ k.path = d.content.path ∧ d.content.InRange k.columns)
    ∧ ∀ {τ : Type} (source' : Source τ) (st' : τ) (s : Snapshot),
      ((Detach.resolveAll draft).run source' st').1.result = .ok s →
        (∀ k ∈ draft.pending, k.Resolves find)
        ∧ s.tables = copies.map fun d =>
          { d.content with foreignKeys := d.pending.map (·.settle find) })
  ∧ Detach.resolveInPlace draft = OptionT.lift (Detach.resolveAll draft)
  ∧ ∀ (t : Table) (e : IndexEntry),
    Detach.copyIndexByFirst t e = OptionT.lift (Walk.copyIndex t e)
  := by
  intro graph find
  have hends : Walk.copyAll.Ends source draft := ⟨st, h⟩
  obtain ⟨copies, htables, hpending, hcopies⟩ := Walk.putTogether_copyAll hends
  constructor
  · use copies, htables, hpending
    constructor
    · intro d hd
      use hcopies d hd
      intro k hk
      apply Detach.of_mem_pending hends htables hcopies hd hk
    · intro τ source' st' s hs
      apply Detach.tables_of_resolveAll hends htables hpending hcopies rfl (Script.canEnd_of_run hs)
  · constructor
    · apply Detach.resolveInPlace_eq hends htables hpending hcopies
    · apply Detach.copyIndexByFirst_eq

/-- The two tables of one path differ in their columns, and each of the foreign keys is put aside
for its own table. -/
theorem resolveInPlace_walked_shifting :
  ∃ draft, (Walk.copyAll.run Source.shifting 0).1.result = .ok draft
    ∧ draft.pending.map (fun k => (k.table, k.columns)) = [(⟨0, 0, 0⟩, [0]), (⟨0, 0, 1⟩, [1])]
    ∧ (∀ k ∈ draft.pending, ∃ t, Snapshot.table? ⟨draft.content⟩ k.table = some t
      ∧ t.InRange k.columns)
    ∧ Detach.resolveInPlace draft = OptionT.lift (Detach.resolveAll draft)
  := by
  have hpending : (Walk.copyAll.run Source.shifting 0).1.result.map
      (fun d => d.pending.map fun k => (k.table, k.columns))
      = .ok [(⟨0, 0, 0⟩, [0]), (⟨0, 0, 1⟩, [1])] := by decide +kernel
  cases h : (Walk.copyAll.run Source.shifting 0).1.result with
  | error fault =>
    rw [h] at hpending
    cases hpending
  | ok draft =>
    rw [h] at hpending
    obtain ⟨⟨copies, -, hcopied, hcopies, -⟩, hinPlace, -⟩ :=
      resolveInPlace_walked Source.shifting 0 h
    use draft, rfl, Except.ok.inj hpending
    constructor
    · intro k hk
      rw [hcopied] at hk
      obtain ⟨d, hd, hk⟩ := List.mem_flatMap.mp hk
      obtain ⟨htable, -, hcolumns⟩ := (hcopies d hd).2 k hk
      exact ⟨d.content, htable, hcolumns⟩
    · exact hinPlace

end DetachedSchema
