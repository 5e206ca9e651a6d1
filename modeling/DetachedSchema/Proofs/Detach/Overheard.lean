import DetachedSchema.Proofs.Detach.Nested
import DetachedSchema.Proofs.Script.Told

/-!
# What is told by whom

The events of a run behind filters come from three sides: the source tells some when it replies, the
filters tell what they hide of each reply, and the script tells what it does.  The source behind the
filters may be overheard; all other events are determined by its answers.
-/

namespace DetachedSchema

/-- The source with a record of the events that it tells, in order. -/
def Source.overheard {σ : Type} (source : Source σ) : Source (σ × List Event) where
  name := source.name
  reply q := fun (st, heard) =>
    let (reply, st) := source.reply q st
    (reply, st, heard ++ reply.events)

/-! ### The replies of several filters -/

namespace Filter

/-- The events that tell what several filters hide of an answer, the first of them being the
innermost. -/
def hiddenAll : List Filter → (q : Query) → q.Answer → List Event
  | [], _, _ => []
  | f :: filters, q, x => f.hidden q x ++ hiddenAll filters q (f.restrict q x)

/-- The reply that several filters leave of a reply. -/
def replyAll (filters : List Filter) (q : Query) (r : Reply q.Answer) : Reply q.Answer :=
  filters.foldl (fun r f => f.reply q r) r

variable {filters : List Filter} {q : Query}

/-- Of an answer is left what all filters keep, and what they hide is told behind what was told. -/
theorem replyAll_ok {x : q.Answer} {events : List Event} :
  replyAll filters q ⟨.ok x, events⟩
    = ⟨.ok (restrictAll filters q x), events ++ hiddenAll filters q x⟩
  := by
  induction filters generalizing x events with
  | nil => rw [restrictAll_nil, hiddenAll, List.append_nil, replyAll, List.foldl_nil]
  | cons f filters ih =>
    rw [restrictAll_cons, hiddenAll, ← List.append_assoc]
    exact ih

/-- Of a fault nothing is hidden. -/
theorem replyAll_error {fault : Fault} {events : List Event} :
  replyAll filters q ⟨.error fault, events⟩ = ⟨.error fault, events⟩
  := by
  induction filters with
  | nil => rfl
  | cons f filters ih => exact ih

end Filter

/-- In each state several filters reply to what the source replies. -/
theorem Source.reply_filteredAll {σ : Type} (source : Source σ) (filters : List Filter) (q : Query)
    (st : σ) :
  (source.filteredAll filters).reply q st
    = (Filter.replyAll filters q (source.reply q st).1, (source.reply q st).2)
  := by
  induction filters generalizing source with
  | nil => rfl
  | cons f filters ih => exact ih (source.filtered f)

/-- What the source tells is overheard before the filters tell what they hide. -/
theorem Source.reply_overheard {σ : Type} (source : Source σ) (filters : List Filter) (q : Query)
    (st : σ) (heard : List Event) :
  (source.overheard.filteredAll filters).reply q (st, heard)
    = (Filter.replyAll filters q (source.reply q st).1, (source.reply q st).2,
      heard ++ (source.reply q st).1.events)
  := source.overheard.reply_filteredAll filters q (st, heard)

namespace Answers

variable {a : Answers} {filters : List Filter} {q : Query}

theorem filteredAll_of_ok {x : q.Answer} (h : a q = .ok x) :
  a.filteredAll filters q = .ok (Filter.restrictAll filters q x)
  := by
  rw [filteredAll, h]
  rfl

theorem filteredAll_of_error {fault : Fault} (h : a q = .error fault) :
  a.filteredAll filters q = .error fault
  := by
  rw [filteredAll, h]
  rfl

/-- The events that tell what several filters hide of what is answered. -/
def hiddenBy (a : Answers) (filters : List Filter) (q : Query) : List Event :=
  match a q with
  | .ok x => Filter.hiddenAll filters q x
  | .error _ => []

end Answers

/-! ### Runs -/

namespace Script

variable {α σ : Type} {source : Source σ} {a : Answers} {filters : List Filter}

theorem run_tell {event : Event} {next : Script α} {st : σ} :
  (tell event next).run source st
    = ({ (next.run source st).1 with events := event :: (next.run source st).1.events },
      (next.run source st).2)
  := rfl

section

variable {q : Query} {next : q.Answer → Script α} {st st' : σ} {heard events : List Event}

/-- When the source fails, a run ends, and what the source told is overheard. -/
theorem run_ask_overheard_error {fault : Fault}
    (h : source.reply q st = (⟨.error fault, events⟩, st')) :
  (ask q next).run (source.overheard.filteredAll filters) (st, heard)
    = ({ result := .error fault, calls := [q], events := events }, st', heard ++ events)
  := by
  simp only [run, Bind.bind, StateT.bind, Source.reply_overheard, h, Filter.replyAll_error]
  rfl

/-- When the source answers, a run goes on with what the filters leave of the answer. -/
theorem run_ask_overheard_ok {x : q.Answer} (h : source.reply q st = (⟨.ok x, events⟩, st')) :
  (ask q next).run (source.overheard.filteredAll filters) (st, heard)
    = let r := (next (Filter.restrictAll filters q x)).run (source.overheard.filteredAll filters)
        (st', heard ++ events)
      ({ r.1 with
        calls := q :: r.1.calls
        events := events ++ Filter.hiddenAll filters q x ++ r.1.events }, r.2)
  := by
  simp only [run, Bind.bind, StateT.bind, Source.reply_overheard, h, Filter.replyAll_ok]
  rfl

end

/-- It makes no difference to a run that the source is overheard. -/
theorem run_overheard (s : Script α) (st : σ) (heard : List Event) :
  (s.run (source.overheard.filteredAll filters) (st, heard)).1
    = (s.run (source.filteredAll filters) st).1
  := by
  induction s generalizing st heard with
  | done a => rfl
  | fail fault => rfl
  | tell event next ih => exact congrArg (fun r => { r with events := event :: r.events }) (ih _ _)
  | ask q next ih =>
    simp only [run, Bind.bind, StateT.bind, Source.reply_overheard]
    simp only [Source.reply_filteredAll]
    generalize source.reply q st = r
    obtain ⟨⟨fault | x, events⟩, st'⟩ := r
    · simp only [Filter.replyAll_error]
      rfl
    · simp only [Filter.replyAll_ok]
      exact congrArg (fun r : Run α => { r with
        calls := q :: r.calls
        events := events ++ Filter.hiddenAll filters q x ++ r.events }) (ih _ _ _)

/-- From a source that tells nothing nothing is heard. -/
theorem heard_of_silent (hsilent : ∀ (q : Query) (st : σ), (source.reply q st).1.events = [])
    (s : Script α) (st : σ) (heard : List Event) :
  (s.run (source.overheard.filteredAll filters) (st, heard)).2.2 = heard
  := by
  induction s generalizing st heard with
  | done a => rfl
  | fail fault => rfl
  | tell event next ih => exact ih st heard
  | ask q next ih =>
    have hevents := hsilent q st
    cases hr : source.reply q st with
    | mk reply st' =>
      obtain ⟨fault | x, events⟩ := reply
      · obtain rfl : events = [] := by simpa [hr] using hevents
        rw [run_ask_overheard_error hr, List.append_nil]
      · obtain rfl : events = [] := by simpa [hr] using hevents
        rw [run_ask_overheard_ok hr, List.append_nil]
        exact ih _ st' heard

/-- The events of a run are those that the source tells, those that the script tells, and those that
tell what the filters hide of the answers to its questions. -/
theorem events_run_overheard (h : source.AnswersAs a) (filters : List Filter) (s : Script α)
    (st : σ) (heard : List Event) :
  let r := s.run (source.overheard.filteredAll filters) (st, heard)
  (heard ++ r.1.events).Perm (r.2.2 ++ (s.told (a.filteredAll filters)
    ++ (s.asked (a.filteredAll filters)).flatMap (a.hiddenBy filters)))
  := by
  simp only [List.perm_iff_count, List.count_append]
  intro e
  induction s generalizing st heard with
  | done x => rfl
  | fail fault => rfl
  | tell event next ih =>
    have ih := ih st heard
    simp only [run_tell, told, asked, List.count_cons] at ih ⊢
    omega
  | ask q next ih =>
    have hq := h q st
    cases hr : source.reply q st with
    | mk reply st' =>
      rw [hr] at hq
      obtain ⟨fault | x, events⟩ := reply
      · have hq : a q = .error fault := hq.symm
        simp only [run_ask_overheard_error hr, told, asked, Answers.filteredAll_of_error hq,
          List.flatMap_cons, Answers.hiddenBy, hq, List.flatMap_nil, List.append_nil,
          List.count_append, List.count_nil, Nat.add_zero]
      · have hq : a q = .ok x := hq.symm
        have hfiltered : a.filteredAll filters q = .ok _ := Answers.filteredAll_of_ok hq
        have ih := ih (Filter.restrictAll filters q x) st' (heard ++ events)
        simp only [run_ask_overheard_ok hr, told_ask hfiltered, asked_ask hfiltered,
          List.flatMap_cons, Answers.hiddenBy, hq, List.count_append] at ih ⊢
        omega

end Script

end DetachedSchema
