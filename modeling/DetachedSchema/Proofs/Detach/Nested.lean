import DetachedSchema.Command
import DetachedSchema.Proofs.Detach.Filtered
import DetachedSchema.Proofs.Detach.Prefetched

/-!
# Filters behind filters

A source behind several filters shows what all of them keep.  The order of the filters does not
matter then, nor does it how often a filter is repeated, and a filter without entries can be left
out: the source is detached to the same snapshot, or fails with the same fault.
-/

namespace DetachedSchema

/-! ### Filters without entries -/

namespace Filter

variable {f : Filter} {q : Query} {x : q.Answer}

theorem isEmpty_iff :
  f.isEmpty ↔ f = {}
  := by
  obtain ⟨catalogs, schemas, tables, excludedTables⟩ := f
  simp [isEmpty, and_assoc]

theorem restrict_empty :
  ({} : Filter).restrict q x = x
  := by
  cases q with
  | catalogs | schemas _ | tables _ | foreignKeys _ =>
    apply List.filter_eq_self.mpr
    intro e _
    rfl
  | _ => rfl

/-- A filter without entries tells nothing. -/
theorem hidden_empty :
  ({} : Filter).hidden q x = []
  := by
  have hkeeps : ∀ path, ({} : Filter).keepsTable path = true := fun _ => rfl
  cases q with
  | tables _ | foreignKeys _ => simp [hidden, hkeeps]
  | _ => rfl

end Filter

/-- A source behind a filter without entries is the source: it gives the same answers, and it tells
the same events. -/
theorem Source.filtered_empty {σ : Type} (source : Source σ) :
  source.filtered {} = source
  := by
  have hreply : ∀ (q : Query) (r : Reply q.Answer), ({} : Filter).reply q r = r := by
    rintro q ⟨answer | fault, events⟩
    · rfl
    · simp only [Filter.reply, Filter.restrict_empty, Filter.hidden_empty, List.append_nil]
  simp only [filtered, hreply, bind_pure]

/-! ### What several filters leave -/

namespace Filter

/-- What several filters leave of the answer to a question: that which all of them keep. -/
def restrictAll (filters : List Filter) : (q : Query) → q.Answer → q.Answer
  | .catalogs, entries => entries.filter fun e => filters.all (·.keepsCatalog e.name)
  | .schemas catalog, entries =>
    entries.filter fun e => filters.all (·.keepsSchema ⟨catalog, e.name⟩)
  | .tables schema, entries =>
    entries.filter fun e => filters.all (·.keepsTable (schema.table e.name))
  | .foreignKeys _, entries => entries.filter fun e => filters.all (·.keepsTable e.references.table)
  | .domains _, answer | .sequences _, answer | .userTypes _, answer | .columns _, answer
  | .indexes _, answer | .uniqueKeys _, answer | .primaryKey _, answer | .checks _, answer => answer

variable {f : Filter} {filters filters' : List Filter} {q : Query} {x : q.Answer}

theorem restrictAll_nil :
  restrictAll [] q x = x
  := by
  cases q with
  | catalogs | schemas _ | tables _ | foreignKeys _ =>
    apply List.filter_eq_self.mpr
    intro e _
    rfl
  | _ => rfl

/-- What the first filter leaves is given to the others. -/
theorem restrictAll_cons :
  restrictAll (f :: filters) q x = restrictAll filters q (f.restrict q x)
  := by
  cases q with
  | catalogs | schemas _ | tables _ | foreignKeys _ =>
    simp only [restrictAll, restrict, List.filter_filter, List.all_cons, Bool.and_comm]
  | _ => rfl

/-- What a filter without entries keeps anyway is kept by all filters when those with entries keep
it. -/
theorem all_eq_true_iff {keeps : Filter → Bool} (hempty : keeps {} = true) :
  filters.all keeps = true ↔ ∀ f, ¬ f.isEmpty → f ∈ filters → keeps f = true
  := by
  rw [List.all_eq_true]
  constructor
  · intro hall f _ hf
    apply hall f hf
  · intro hall f hf
    by_cases hf' : f.isEmpty
    · rw [isEmpty_iff.mp hf', hempty]
    · apply hall f hf' hf

/-- What is left depends on which filters with entries there are, and on nothing else. -/
theorem restrictAll_congr (h : ∀ f, ¬ f.isEmpty → (f ∈ filters ↔ f ∈ filters')) :
  restrictAll filters q x = restrictAll filters' q x
  := by
  have hall : ∀ {keeps : Filter → Bool}, keeps {} = true →
      filters.all keeps = filters'.all keeps := by
    intro keeps hempty
    rw [Bool.eq_iff_iff, all_eq_true_iff hempty, all_eq_true_iff hempty]
    exact forall₂_congr fun f hf => imp_congr_left (h f hf)
  cases q with
  | catalogs | schemas _ | tables _ | foreignKeys _ =>
    apply List.filter_congr
    intro e _
    apply hall rfl
  | _ => rfl

end Filter

/-- What several filters leave of the answers. -/
def Answers.filteredAll (a : Answers) (filters : List Filter) : Answers :=
  fun q => (a q).map (Filter.restrictAll filters q)

/-- Filters one behind the other leave what all of them keep. -/
theorem Answers.foldl_filtered (a : Answers) (filters : List Filter) :
  filters.foldl Answers.filtered a = a.filteredAll filters
  := by
  induction filters generalizing a with
  | nil =>
    funext q
    rw [List.foldl_nil, filteredAll]
    cases a q with
    | ok x => exact congrArg Except.ok Filter.restrictAll_nil.symm
    | error fault => rfl
  | cons f filters ih =>
    funext q
    rw [List.foldl_cons, ih, filteredAll, filteredAll, filtered]
    cases a q with
    | ok x => exact congrArg Except.ok Filter.restrictAll_cons.symm
    | error fault => rfl

/-- A source behind several filters answers with what all of them keep, and fails where it failed
before. -/
theorem Source.answersAs_filteredAll {σ : Type} {source : Source σ} {a : Answers}
    (h : source.AnswersAs a) (filters : List Filter) :
  (source.filteredAll filters).AnswersAs (a.filteredAll filters)
  := by
  rw [← a.foldl_filtered]
  apply h.filteredAll

/-! ### Detaching behind several filters -/

/-- Detaches a listing behind the filter of the settings, also when that has no entries. -/
def Command.detachFiltered (s : Settings) (asJson : Bool) : Action Unit := do
  let listing ← Listing.load s.source.path s.source.format
  Action.log (.loadedListing s.source.path)
  let snapshot ← Action.ofRun (DetachedSchema.detach (listing.source.filtered s.filter) ()).1
  writeSnapshot s asJson snapshot

/-- It makes no difference that an empty filter is left out. -/
theorem Command.detachWith_eq (s : Settings) (asJson : Bool) :
  detachWith s asJson = detachFiltered s asJson
  := by
  have hsource : ∀ l : Listing,
      (if s.filter.isEmpty then l.source else l.source.filtered s.filter)
        = l.source.filtered s.filter := by
    intro l
    split
    case isTrue hempty => rw [Filter.isEmpty_iff.mp hempty, Source.filtered_empty]
    case isFalse => rfl
  simp only [detachWith, hsource, detachFiltered]

/-- A source behind several filters shows what all of them keep.  It is detached to the same
snapshot, or fails with the same fault, behind all lists of filters in which the same filters with
entries stand: in another order, with some of them repeated, with filters without entries or without
them.  So a command may leave out an empty filter. -/
theorem detach_filteredAll {σ : Type} (source : Source σ) (st st' : σ) {a : Answers}
    (h : source.AnswersAs a) {filters filters' : List Filter}
    (hsame : ∀ f, ¬ f.isEmpty → (f ∈ filters ↔ f ∈ filters')) :
  (source.filteredAll filters).AnswersAs (a.filteredAll filters)
  ∧ (detach (source.filteredAll filters) st).1.result
    = (detach (source.filteredAll filters') st').1.result
  ∧ ∀ s asJson, Command.detachWith s asJson = Command.detachFiltered s asJson
  := by
  have hanswers : a.filteredAll filters = a.filteredAll filters' := by
    funext q
    rw [Answers.filteredAll, Answers.filteredAll]
    congr 1
    funext x
    apply Filter.restrictAll_congr hsame
  have hleft := Source.answersAs_filteredAll h filters
  have hright := Source.answersAs_filteredAll h filters'
  use hleft
  constructor
  · rw [detach, Script.result_run hleft, detach, Script.result_run hright, hanswers]
    apply Detach.outcome_script_eq
  · exact Command.detachWith_eq

/-- The orders are detached without the log, in whatever order the filters stand.  An index that is
misspelt is the fault behind filters that keep its table, however often they keep it. -/
theorem detach_filteredAll_sales :
  let inSchema : Filter := { schemas := ["s"] }
  let filters : List Filter := [inSchema, .withoutLog]
  let filters' : List Filter := [.withoutLog, {}, inSchema, .withoutLog]
  (∃ s, (detach (Listing.sales.source.filteredAll filters) ()).1.result = .ok s
    ∧ (detach (Listing.sales.source.filteredAll filters') ()).1.result = .ok s
    ∧ s.stats.tables = 2)
  ∧ (detach (Listing.misspelt.source.filteredAll filters') ()).1.result
    = .error (.unknownColumn "s.t" "Index by_di" "di")
  := by
  intro inSchema filters filters'
  have hsame : ∀ f, ¬ f.isEmpty → (f ∈ filters ↔ f ∈ filters') := by
    intro f hf
    have hf' : f ≠ {} := hf ∘ Filter.isEmpty_iff.mpr
    simp [filters, filters', hf', or_comm]
  constructor
  · obtain ⟨hanswers, hresult, -⟩ := detach_filteredAll Listing.sales.source () ()
      (Source.answersAs_ofAnswers _ _) hsame
    have hs : (detach (Listing.sales.source.filteredAll filters) ()).1.result
        = .ok (Listing.sales.snapshot.filtered .withoutLog) := by
      rw [detach, Script.result_run hanswers]
      decide
    exact ⟨_, hs, hresult.symm.trans hs, by decide⟩
  · obtain ⟨hanswers, hresult, -⟩ := detach_filteredAll Listing.misspelt.source () ()
      (Source.answersAs_ofAnswers _ _) hsame
    rw [← hresult, detach, Script.result_run hanswers]
    decide

end DetachedSchema
