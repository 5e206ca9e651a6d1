import DetachedSchema.Proofs.Detach.Questions

/-!
# The listing that is recorded

When every question about what is listed has an answer, there is one listing that records the
answers, and no other.
-/

namespace DetachedSchema

variable {a : Answers}

/-! ### No more than one listing -/

theorem TableListing.Records.eq {t t' : TableListing} {path : TablePath}
    (h : t.Records a.given path) (h' : t'.Records a.given path) (hentry : t.entry = t'.entry) :
  t = t'
  := by
  obtain ⟨hname, hcomment, hoptions⟩ := TableEntry.mk.inj hentry
  have hcolumns := Except.ok.inj (h.columns.symm.trans h'.columns)
  have hindexes := Except.ok.inj (h.indexes.symm.trans h'.indexes)
  have huniqueKeys := Except.ok.inj (h.uniqueKeys.symm.trans h'.uniqueKeys)
  have hprimaryKey := Except.ok.inj (h.primaryKey.symm.trans h'.primaryKey)
  have hforeignKeys := Except.ok.inj (h.foreignKeys.symm.trans h'.foreignKeys)
  have hchecks := Except.ok.inj (h.checks.symm.trans h'.checks)
  cases t
  congr

theorem SchemaListing.Records.eq {s s' : SchemaListing} {path : SchemaPath}
    (h : s.Records a.given path) (h' : s'.Records a.given path) (hentry : s.entry = s'.entry) :
  s = s'
  := by
  obtain ⟨hname, hcomment⟩ := SchemaEntry.mk.inj hentry
  have hdomains := Except.ok.inj (h.domains.symm.trans h'.domains)
  have hentries := Except.ok.inj (h.tables.symm.trans h'.tables)
  have htables : s.tables = s'.tables := by
    apply eq_of_map_eq _ h.below h'.below hentries
    intro t t' ht ht' hentry
    rw [(TableEntry.mk.inj hentry).1] at ht
    apply ht.eq ht' hentry
  have hsequences := Except.ok.inj (h.sequences.symm.trans h'.sequences)
  have huserTypes := Except.ok.inj (h.userTypes.symm.trans h'.userTypes)
  cases s
  congr

theorem CatalogListing.Records.eq {c c' : CatalogListing} (h : c.Records a.given)
    (h' : c'.Records a.given) (hentry : c.entry = c'.entry) :
  c = c'
  := by
  obtain ⟨hname, hcomment⟩ := CatalogEntry.mk.inj hentry
  obtain ⟨hentries, hbelow⟩ := h
  obtain ⟨hentries', hbelow'⟩ := h'
  rw [← hname] at hentries' hbelow'
  have hschemas : c.schemas = c'.schemas := by
    apply eq_of_map_eq _ hbelow hbelow' (Except.ok.inj (hentries.symm.trans hentries'))
    intro s s' hs hs' hentry
    rw [(SchemaEntry.mk.inj hentry).1] at hs
    apply hs.eq hs' hentry
  cases c
  congr

/-- Only one listing records given answers. -/
theorem Listing.Records.eq {l l' : Listing} (h : l.Records a.given) (h' : l'.Records a.given) :
  l = l'
  := by
  have hentries := Except.ok.inj (h.catalogs.symm.trans h'.catalogs)
  have hcatalogs := eq_of_map_eq (fun _ _ => CatalogListing.Records.eq) h.below h'.below hentries
  cases l
  congr

/-! ### A listing of all answers -/

section

variable (h : ∀ q, a.Reaches q → ∃ x, a q = .ok x)

include h

theorem TableListing.exists_records {path : TablePath} (hpath : a.HasTable path) (e : TableEntry) :
  ∃ t : TableListing, t.entry = e ∧ t.Records a.given path
  := by
  obtain ⟨columns, hcolumns⟩ := h (.columns path) hpath
  obtain ⟨indexes, hindexes⟩ := h (.indexes path) hpath
  obtain ⟨keys, hkeys⟩ := h (.uniqueKeys path) hpath
  obtain ⟨primary, hprimary⟩ := h (.primaryKey path) hpath
  obtain ⟨foreignKeys, hforeignKeys⟩ := h (.foreignKeys path) hpath
  obtain ⟨checks, hchecks⟩ := h (.checks path) hpath
  use ⟨e.name, e.comment, e.options, columns, indexes, keys, primary, foreignKeys, checks⟩, rfl
  exact ⟨hcolumns, hindexes, hkeys, hprimary, hforeignKeys, hchecks⟩

theorem SchemaListing.exists_records {path : SchemaPath} (hpath : a.HasSchema path)
    (e : SchemaEntry) :
  ∃ s : SchemaListing, s.entry = e ∧ s.Records a.given path
  := by
  obtain ⟨domains, hdomains⟩ := h (.domains path) hpath
  obtain ⟨entries, hentries⟩ := h (.tables path) hpath
  obtain ⟨sequences, hsequences⟩ := h (.sequences path) hpath
  obtain ⟨userTypes, huserTypes⟩ := h (.userTypes path) hpath
  have hbelow : ∀ t ∈ entries,
      ∃ x : TableListing, x.entry = t ∧ x.Records a.given (path.table x.name) := by
    intro t ht
    have htable : a.HasTable (path.table t.name) := ⟨hpath, entries, hentries, t, ht, rfl⟩
    obtain ⟨x, rfl, hx⟩ := TableListing.exists_records h htable t
    exact ⟨x, rfl, hx⟩
  obtain ⟨ts, rfl, hts⟩ := exists_map_eq hbelow
  use ⟨e.name, e.comment, domains, ts, sequences, userTypes⟩, rfl
  exact ⟨hdomains, hentries, hts, hsequences, huserTypes⟩

theorem CatalogListing.exists_records {e : CatalogEntry} (hname : a.HasCatalog e.name) :
  ∃ c : CatalogListing, c.entry = e ∧ c.Records a.given
  := by
  obtain ⟨entries, hentries⟩ := h (.schemas e.name) hname
  have hbelow : ∀ s ∈ entries,
      ∃ x : SchemaListing, x.entry = s ∧ x.Records a.given ⟨e.name, x.name⟩ := by
    intro s hs
    have hschema : a.HasSchema ⟨e.name, s.name⟩ := ⟨hname, entries, hentries, s, hs, rfl⟩
    obtain ⟨x, rfl, hx⟩ := SchemaListing.exists_records h hschema s
    exact ⟨x, rfl, hx⟩
  obtain ⟨ss, rfl, hss⟩ := exists_map_eq hbelow
  use ⟨e.name, e.comment, ss⟩, rfl
  exact ⟨hentries, hss⟩

/-- When there is an answer about everything that is listed, a listing records the answers. -/
theorem Listing.exists_records :
  ∃ l : Listing, l.Records a.given
  := by
  obtain ⟨entries, hentries⟩ := h .catalogs trivial
  have hbelow : ∀ e ∈ entries, ∃ c : CatalogListing, c.entry = e ∧ c.Records a.given := by
    intro e he
    apply CatalogListing.exists_records h ⟨entries, hentries, e, he, rfl⟩
  obtain ⟨cs, rfl, hcs⟩ := exists_map_eq hbelow
  exact ⟨⟨cs⟩, hentries, hcs⟩

end

/-- There is an answer about everything that is listed, when a walk comes to its end. -/
theorem Listing.Records.exists_answer {l : Listing} (h : l.Records a.given)
    (hnames : l.NamesColumns) {q : Query} (hq : a.Reaches q) :
  ∃ x, a q = .ok x
  := by
  apply Script.exists_of_mem_asked (Walk.outcome_copyAll h hnames)
  rw [Walk.asked_copyAll h hnames]
  apply h.mem_questions.mpr hq

end DetachedSchema
