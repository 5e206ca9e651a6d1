import DetachedSchema.Script
import DetachedSchema.Filter

/-!
# Outcomes of scripts

What a script can end with, apart from the source that it is run against.

* A source may answer a question differently each time.  `Script.CanEnd` says that a script can end
  with a value when every answer is one of those that a relation allows; every run of the script
  that succeeds ends like that.
* A source may answer as `Answers` say, whatever its state.  Then a script has one outcome and asks
  one list of questions, and so does every run of it.
-/

namespace DetachedSchema

/-- An answer to every question, or the reason why there is none. -/
abbrev Answers : Type := (q : Query) → Except Fault q.Answer

/-- Which answers to a question are possible. -/
abbrev Possible : Type := (q : Query) → q.Answer → Prop

/-- The only answers that are possible are those that are given. -/
def Answers.given (a : Answers) : Possible := fun q x => a q = .ok x

/-! ### Sources -/

/-- The source answers as `a` says, whatever its state. -/
def Source.AnswersAs {σ : Type} (source : Source σ) (a : Answers) : Prop :=
  ∀ (q : Query) (st : σ), (source.reply q st).1.result = a q

/-- The answers that the source gives in some state are possible. -/
def Source.possible {σ : Type} (source : Source σ) : Possible :=
  fun q x => ∃ st : σ, (source.reply q st).1.result = .ok x

/-- What a filter leaves of the answers. -/
def Answers.filtered (a : Answers) (f : Filter) : Answers := fun q => (a q).map (f.restrict q)

theorem Source.answersAs_ofAnswers (name : String) (a : Answers) :
  (Source.ofAnswers name a).AnswersAs a
  := fun _ _ => rfl

/-- A source that fails here and there answers elsewhere as before. -/
theorem Source.AnswersAs.failingWhere {σ : Type} {source : Source σ} {a : Answers}
    (h : source.AnswersAs a) (fault : Query → Option Fault) :
  (source.failingWhere fault).AnswersAs fun q => ((fault q).map .error).getD (a q)
  := by
  intro q st
  rw [Source.failingWhere]
  cases hq : fault q with
  | some f => simp only [hq]; rfl
  | none => simp only [hq]; exact h q st

/-- In each state a filtered source answers with what the filter leaves of the answer. -/
theorem Source.result_filtered {σ : Type} (source : Source σ) (f : Filter) (q : Query) (st : σ) :
  ((source.filtered f).reply q st).1.result = (source.reply q st).1.result.map (f.restrict q)
  := by
  change (f.reply q (source.reply q st).1).result = _
  rw [Filter.reply]
  cases (source.reply q st).1.result with
  | ok answer => rfl
  | error fault => rfl

/-- A filtered source answers with what the filter leaves. -/
theorem Source.AnswersAs.filtered {σ : Type} {source : Source σ} {a : Answers}
    (h : source.AnswersAs a) (f : Filter) :
  (source.filtered f).AnswersAs (a.filtered f)
  := by
  intro q st
  rw [source.result_filtered, h q st, Answers.filtered]

/-- Filters may be nested to any depth. -/
theorem Source.AnswersAs.filteredAll {σ : Type} {source : Source σ} {a : Answers}
    (h : source.AnswersAs a) (filters : List Filter) :
  (source.filteredAll filters).AnswersAs (filters.foldl Answers.filtered a)
  := by
  induction filters generalizing source a with
  | nil => apply h
  | cons f filters ih => apply ih (h.filtered f)

/-! ### Results in general -/

namespace Script

variable {α β : Type}

/-- The script can end with a value when the answers are possible ones. -/
def CanEnd (A : Possible) : Script α → α → Prop
  | .done a, b => a = b
  | .fail _, _ => False
  | .tell _ next, b => next.CanEnd A b
  | .ask q next, b => ∃ x, A q x ∧ (next x).CanEnd A b

@[simp]
theorem canEnd_done {A : Possible} {a b : α} :
  (done a).CanEnd A b ↔ a = b
  := Iff.rfl

@[simp]
theorem canEnd_fail {A : Possible} {fault : Fault} {a : α} :
  ¬ (fail fault : Script α).CanEnd A a
  := id

@[simp]
theorem canEnd_log {A : Possible} {event : Event} {u : Unit} :
  (log event).CanEnd A u
  := rfl

@[simp]
theorem canEnd_ask {A : Possible} {q : Query} {next : q.Answer → Script α} {a : α} :
  (ask q next).CanEnd A a ↔ ∃ x, A q x ∧ (next x).CanEnd A a
  := Iff.rfl

@[simp]
theorem canEnd_ofExcept {A : Possible} {e : Except Fault α} {a : α} :
  (ofExcept e).CanEnd A a ↔ e = .ok a
  := by
  cases e with
  | ok b => simp [ofExcept]
  | error fault => simp [ofExcept]

@[simp]
theorem canEnd_bind {A : Possible} {s : Script α} {f : α → Script β} {b : β} :
  (s.bind f).CanEnd A b ↔ ∃ a, s.CanEnd A a ∧ (f a).CanEnd A b
  := by
  induction s with
  | done a => simp [bind]
  | fail fault => simp [bind, CanEnd]
  | tell event next ih => simpa only [bind, CanEnd] using ih
  | ask q next ih =>
    simp only [bind, CanEnd, ih]
    constructor
    · rintro ⟨x, hx, a, ha, hb⟩
      exact ⟨a, ⟨x, hx, ha⟩, hb⟩
    · rintro ⟨a, ⟨x, hx, ha⟩, hb⟩
      exact ⟨x, hx, a, ha, hb⟩

/-- Telling events never keeps a script from ending. -/
@[simp]
theorem canEnd_forM_log {A : Possible} {l : List β} {event : β → Event} {u : PUnit} :
  (l.forM fun x => log (event x)).CanEnd A u
  := by
  induction l with
  | nil => rfl
  | cons x l ih => exact canEnd_bind.mpr ⟨(), rfl, ih⟩

/-! ### Runs -/

/-- A question with an answer is recorded, and the run goes on with the answer. -/
theorem run_ask_ok {σ : Type} {source : Source σ} {q : Query} {next : q.Answer → Script α} {st : σ}
    {x : q.Answer} (h : (source.reply q st).1.result = .ok x) :
  ((ask q next).run source st).1 =
    { ((next x).run source (source.reply q st).2).1 with
      calls := q :: ((next x).run source (source.reply q st).2).1.calls
      events := (source.reply q st).1.events
        ++ ((next x).run source (source.reply q st).2).1.events }
  := by
  simp only [run, Bind.bind, StateT.bind]
  generalize source.reply q st = r at h ⊢
  obtain ⟨⟨result, events⟩, st'⟩ := r
  obtain rfl : result = .ok x := h
  rfl

/-- A question without an answer is the last one. -/
theorem run_ask_error {σ : Type} {source : Source σ} {q : Query} {next : q.Answer → Script α}
    {st : σ} {fault : Fault} (h : (source.reply q st).1.result = .error fault) :
  ((ask q next).run source st).1 =
    { result := .error fault, calls := [q], events := (source.reply q st).1.events }
  := by
  simp only [run, Bind.bind, StateT.bind]
  generalize source.reply q st = r at h ⊢
  obtain ⟨⟨result, events⟩, st'⟩ := r
  obtain rfl : result = .error fault := h
  rfl

/-- A run that succeeds ends as the answers of the source allow. -/
theorem canEnd_of_run {σ : Type} {source : Source σ} {s : Script α} {st : σ} {a : α}
    (h : (s.run source st).1.result = .ok a) :
  s.CanEnd source.possible a
  := by
  induction s generalizing st with
  | done b => exact Except.ok.inj h
  | fail fault => cases h
  | tell event next ih => exact ih h
  | ask q next ih =>
    cases hr : (source.reply q st).1.result with
    | ok x =>
      rw [run_ask_ok hr] at h
      exact ⟨x, ⟨st, hr⟩, ih x h⟩
    | error fault =>
      rw [run_ask_error hr] at h
      cases h

/-! ### The outcome when the answers are given -/

/-- What the script ends with when the answers are `a`. -/
def outcome (a : Answers) : Script α → Except Fault α
  | .done x => .ok x
  | .fail fault => .error fault
  | .tell _ next => next.outcome a
  | .ask q next => a q >>= fun x => (next x).outcome a

/-- The questions that the script asks when the answers are `a`. -/
def asked (a : Answers) : Script α → List Query
  | .done _ => []
  | .fail _ => []
  | .tell _ next => next.asked a
  | .ask q next => q :: match a q with
    | .ok x => (next x).asked a
    | .error _ => []

@[simp]
theorem outcome_done {a : Answers} {x : α} :
  (done x).outcome a = .ok x
  := rfl

@[simp]
theorem outcome_log {a : Answers} {event : Event} :
  (log event).outcome a = .ok ()
  := rfl

@[simp]
theorem outcome_throw {a : Answers} {fault : Fault} :
  (throw fault : Script α).outcome a = .error fault
  := rfl

@[simp]
theorem outcome_bind {a : Answers} {s : Script α} {f : α → Script β} :
  (s.bind f).outcome a = s.outcome a >>= fun x => (f x).outcome a
  := by
  induction s with
  | done x => rfl
  | fail fault => rfl
  | tell event next ih => exact ih
  | ask q next ih => simp only [bind, outcome, ih, bind_assoc]

/-- The possible ends are the outcome. -/
theorem canEnd_given {a : Answers} {s : Script α} {b : α} :
  s.CanEnd a.given b ↔ s.outcome a = .ok b
  := by
  induction s with
  | done x => simp
  | fail fault => simp [CanEnd, outcome]
  | tell event next ih => exact ih
  | ask q next ih =>
    simp only [CanEnd, outcome, Answers.given, ih]
    cases h : a q with
    | ok x => simp [Bind.bind, Except.bind]
    | error fault => simp [Bind.bind, Except.bind]

theorem outcome_mapM {γ : Type} {a : Answers} {f : β → Script γ} {l : List β} :
  (l.mapM f).outcome a = l.mapM fun x => (f x).outcome a
  := by
  induction l with
  | nil => rfl
  | cons x l ih =>
    simp only [List.mapM_cons, bind_eq, outcome_bind, ih, pure_eq_done, outcome_done]
    rfl

@[simp]
theorem outcome_ofExcept {a : Answers} {e : Except Fault α} :
  (ofExcept e).outcome a = e
  := by cases e <;> rfl

/-! ### The questions when the answers are given -/

@[simp]
theorem asked_done {a : Answers} {x : α} :
  (done x).asked a = []
  := rfl

@[simp]
theorem asked_log {a : Answers} {event : Event} :
  (log event).asked a = []
  := rfl

@[simp]
theorem asked_ofExcept {a : Answers} {e : Except Fault α} :
  (ofExcept e).asked a = []
  := by cases e <;> rfl

theorem asked_ask {a : Answers} {q : Query} {next : q.Answer → Script α} {x : q.Answer}
    (h : a q = .ok x) :
  (ask q next).asked a = q :: (next x).asked a
  := by rw [asked, h]

/-- What follows is asked only when there is a result. -/
theorem asked_bind {a : Answers} {s : Script α} {f : α → Script β} :
  (s.bind f).asked a = s.asked a ++ match s.outcome a with
    | .ok x => (f x).asked a
    | .error _ => []
  := by
  induction s with
  | done x => rfl
  | fail fault => rfl
  | tell event next ih => exact ih
  | ask q next ih =>
    cases hq : a q with
    | ok x =>
      rw [bind, asked_ask hq, asked_ask hq, ih, outcome, hq]
      rfl
    | error fault =>
      rw [bind, asked, asked, outcome, hq]
      rfl

theorem asked_bind_of_ok {a : Answers} {s : Script α} {f : α → Script β} {x : α}
    (h : s.outcome a = .ok x) :
  (s.bind f).asked a = s.asked a ++ (f x).asked a
  := by rw [asked_bind, h]

/-- What follows a script that asks nothing and does not fail is all that is asked. -/
theorem asked_bind_of_quiet {a : Answers} {s : Script α} {f : α → Script β} {x : α}
    (hs : s.asked a = []) (h : s.outcome a = .ok x) :
  (s.bind f).asked a = (f x).asked a
  := by rw [asked_bind_of_ok h, hs, List.nil_append]

theorem asked_forM_log {a : Answers} {l : List β} {event : β → Event} :
  (l.forM fun x => log (event x)).asked a = []
  := by
  induction l with
  | nil => rfl
  | cons x l ih => exact ih

/-- When nothing fails, the questions are those about the members, in order. -/
theorem asked_mapM {a : Answers} {f : β → Script α} {l : List β}
    (h : ∀ x ∈ l, ∃ y, (f x).outcome a = .ok y) :
  (l.mapM f).asked a = l.flatMap fun x => (f x).asked a
  := by
  induction l with
  | nil => rfl
  | cons x l ih =>
    obtain ⟨⟨y, hy⟩, hl⟩ := List.forall_mem_cons.mp h
    rw [List.mapM_cons, bind_eq, asked_bind_of_ok hy, bind_eq, asked_bind, ih hl, List.flatMap_cons]
    cases (l.mapM f).outcome a with
    | ok ys => simp
    | error fault => simp

/-- Scripts that ask nothing ask nothing together. -/
theorem asked_mapM_eq_nil {a : Answers} {f : β → Script α} (h : ∀ x, (f x).asked a = [])
    {l : List β} :
  (l.mapM f).asked a = []
  := by
  induction l with
  | nil => rfl
  | cons x l ih =>
    rw [List.mapM_cons, bind_eq, asked_bind, h, List.nil_append]
    cases (f x).outcome a with
    | ok y =>
      simp only [bind_eq, pure_eq_done, asked_bind, ih, List.nil_append, asked_done]
      cases (l.mapM f).outcome a <;> rfl
    | error fault => rfl

/-- What was asked on the way to a result has an answer. -/
theorem exists_of_mem_asked {a : Answers} {s : Script α} {b : α} (h : s.outcome a = .ok b)
    {q : Query} (hq : q ∈ s.asked a) :
  ∃ x, a q = .ok x
  := by
  induction s with
  | done x => cases hq
  | fail fault => cases hq
  | tell event next ih => exact ih h hq
  | ask q' next ih =>
    cases hx : a q' with
    | ok x =>
      rw [asked_ask hx] at hq
      rw [outcome, hx] at h
      obtain rfl | hq := List.mem_cons.mp hq
      · exact ⟨x, hx⟩
      · exact ih x h hq
    | error fault =>
      rw [outcome, hx] at h
      cases h

/-! ### Runs against given answers -/

/-- Against a source that answers as `a` says a script ends with its outcome. -/
theorem result_run {σ : Type} {source : Source σ} {a : Answers} (h : source.AnswersAs a)
    (s : Script α) (st : σ) :
  (s.run source st).1.result = s.outcome a
  := by
  induction s generalizing st with
  | done x => rfl
  | fail fault => rfl
  | tell event next ih => exact ih st
  | ask q next ih =>
    cases hr : (source.reply q st).1.result with
    | ok x =>
      rw [run_ask_ok hr, outcome, ← h q st, hr]
      exact ih x _
    | error fault =>
      rw [run_ask_error hr, outcome, ← h q st, hr]
      rfl

/-- Against a source that answers as `a` says a script asks its questions and no others. -/
theorem calls_run {σ : Type} {source : Source σ} {a : Answers} (h : source.AnswersAs a)
    (s : Script α) (st : σ) :
  (s.run source st).1.calls = s.asked a
  := by
  induction s generalizing st with
  | done x => rfl
  | fail fault => rfl
  | tell event next ih => exact ih st
  | ask q next ih =>
    cases hr : (source.reply q st).1.result with
    | ok x =>
      rw [run_ask_ok hr, asked, ← h q st, hr]
      exact congrArg (q :: ·) (ih x _)
    | error fault =>
      rw [run_ask_error hr, asked, ← h q st, hr]

end Script

end DetachedSchema
