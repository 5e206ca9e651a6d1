import DetachedSchema.Proofs.Detach.Prefetched

/-!
# Sources that fail

A source that fails to answer one of the questions of a walk ends the walk there: detaching it gives
the fault of the source, whatever would have become of the rest, and nothing is asked afterwards.
The same holds of prefetching.
-/

namespace DetachedSchema

/-- The run asks some questions up to the first that is `c`, and ends with the fault there. -/
structure Script.Run.FailsAt {α : Type} (r : Script.Run α) (questions : List Query) (c : Query)
    (fault : Fault) : Prop where
  result : r.result = .error fault
  calls : ∃ before after, questions = before ++ c :: after ∧ c ∉ before ∧ r.calls = before ++ [c]

/-- A script fails at the first question that the source fails to answer. -/
theorem Script.failsAt_run {α τ : Type} {source : Source τ} {a b : Answers}
    (h : source.AnswersAs b) {c : Query} {fault : Fault} (hfault : b c = .error fault)
    (hothers : ∀ q, q ≠ c → b q = a q) {s : Script α} (hc : c ∈ s.asked a) (st : τ) :
  (s.run source st).1.FailsAt (s.asked a) c fault
  := by
  obtain ⟨houtcome, hasked⟩ := outcome_of_fault hfault hothers hc
  constructor
  case result => rw [Script.result_run h, houtcome]
  case calls => rwa [Script.calls_run h]

/-- The name of a source is only told when it is prefetched. -/
theorem Prefetch.asked_script_eq {a : Answers} {name name' : String} :
  (script name).asked a = (script name').asked a
  := rfl

/-- A source that fails to answer one of the questions of a walk, and answers all others as before,
is asked up to the first of these questions and no further, and its fault is that of detaching, also
when a reference would have failed.  The same holds of prefetching, which asks what a walk asks that
comes to its end. -/
theorem detach_failing {σ τ : Type} (source : Source σ) (st : σ) (source' : Source τ) (st' : τ)
    {a b : Answers} (h : source.AnswersAs a) (h' : source'.AnswersAs b) {c : Query} {fault : Fault}
    (hfault : b c = .error fault) (hothers : ∀ q, q ≠ c → b q = a q) :
  let asked := (Walk.copyAll.run source st).1.calls
  let fetched := (prefetch source st).1.calls
  (c ∈ asked → (detach source' st').1.FailsAt asked c fault)
  ∧ (c ∈ fetched → (prefetch source' st').1.FailsAt fetched c fault)
  ∧ ∀ draft, (Walk.copyAll.run source st).1.result = .ok draft → fetched = asked
  := by
  intro asked fetched
  have hasked : asked = (Detach.script source'.name).asked a :=
    (Script.calls_run h _ st).trans Detach.asked_script_eq.symm
  have hfetched : fetched = (Prefetch.script source'.name).asked a :=
    (Script.calls_run h _ st).trans Prefetch.asked_script_eq
  constructor
  · intro hc
    rw [hasked] at hc ⊢
    apply Script.failsAt_run h' hfault hothers hc
  constructor
  · intro hc
    rw [hfetched] at hc ⊢
    apply Script.failsAt_run h' hfault hothers hc
  · intro draft hdraft
    rw [Script.result_run h] at hdraft
    have hfollows : Walk.copyAll.Follows a (Prefetch.script source'.name) :=
      Prefetch.follows_script
    rw [hfetched, hasked, Detach.asked_script_eq, (hfollows.ended draft hdraft).1]

/-- The twins have a reference that fails.  When the foreign keys of their first table cannot be
read, that is the fault, and they are asked for nothing else, though both tables share the path. -/
theorem detach_failing_twins :
  let c : Query := .foreignKeys ⟨"", "s", "t"⟩
  let fault : Fault := .sourceAccess "foreign keys of s.t" "connection reset"
  let source := Listing.twins.source.failingWhere fun q => if q = c then some fault else none
  (detach Listing.twins.source ()).1.result
    = .error (.unresolvedReference "lost" "s.t" "s.x" "id")
  ∧ (detach source ()).1.FailsAt (detach Listing.twins.source ()).1.calls c fault
  ∧ (prefetch source ()).1.FailsAt (prefetch Listing.twins.source ()).1.calls c fault
  ∧ (detach source ()).1.calls
    = [.catalogs, .schemas "", .domains ⟨"", "s"⟩, .tables ⟨"", "s"⟩, .columns ⟨"", "s", "t"⟩,
      .indexes ⟨"", "s", "t"⟩, .uniqueKeys ⟨"", "s", "t"⟩, .primaryKey ⟨"", "s", "t"⟩, c]
  := by
  intro c fault source
  have htwins : Listing.twins.source.AnswersAs Listing.twins.answer :=
    Source.answersAs_ofAnswers _ _
  have hsource : source.AnswersAs _ := htwins.failingWhere _
  have hothers : ∀ q, q ≠ c →
      ((if q = c then some fault else none).map .error).getD (Listing.twins.answer q)
        = Listing.twins.answer q := by
    intro q hq
    rw [if_neg hq]
    rfl
  obtain ⟨hdetach, hprefetch, -⟩ :=
    detach_failing Listing.twins.source () source () htwins hsource rfl hothers
  have hcalls : (detach Listing.twins.source ()).1.calls
      = (Walk.copyAll.run Listing.twins.source ()).1.calls := by
    rw [detach, Script.calls_run htwins, Script.calls_run htwins, Detach.asked_script_eq]
  constructor
  · rw [detach, Script.result_run htwins]
    decide
  rw [hcalls]
  constructor
  · apply hdetach
    rw [Script.calls_run htwins]
    decide
  constructor
  · apply hprefetch
    rw [prefetch, Script.calls_run htwins]
    decide
  · rw [detach, Script.calls_run hsource]
    decide

end DetachedSchema
