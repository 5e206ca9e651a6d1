import DetachedSchema.Proofs.Script.Outcome

/-!
# What a script may ask

A script asks only questions of some kind when it does so whatever possible answers it is given;
then no run of it asks anything else.  A filter passes every question on to the source behind it, so
the questions that reach that source are the questions of the run.
-/

namespace DetachedSchema

/-- The source with a record of the questions that reach it, in order. -/
def Source.recording {σ : Type} (source : Source σ) : Source (σ × List Query) where
  name := source.name
  reply q := fun (st, reached) =>
    let (reply, st) := source.reply q st
    (reply, st, reached ++ [q])

namespace Script

variable {α β : Type} {A : Possible} {P : Query → Prop}

/-- The script asks only questions with `P` when the answers are possible ones. -/
def AsksOnly (A : Possible) (P : Query → Prop) : Script α → Prop
  | .done _ => True
  | .fail _ => True
  | .tell _ next => next.AsksOnly A P
  | .ask q next => P q ∧ ∀ x, A q x → (next x).AsksOnly A P

theorem asksOnly_done {a : α} :
  (done a).AsksOnly A P
  := trivial

theorem asksOnly_log {event : Event} :
  (log event).AsksOnly A P
  := trivial

theorem asksOnly_ofExcept {e : Except Fault α} :
  (ofExcept e).AsksOnly A P
  := by
  cases e with
  | ok a => trivial
  | error fault => trivial

theorem asksOnly_ask {q : Query} {next : q.Answer → Script α} (hq : P q)
    (h : ∀ x, A q x → (next x).AsksOnly A P) :
  (ask q next).AsksOnly A P
  := ⟨hq, h⟩

theorem AsksOnly.bind {s : Script α} {f : α → Script β} (hs : s.AsksOnly A P)
    (hf : ∀ a, (f a).AsksOnly A P) :
  (s.bind f).AsksOnly A P
  := by
  induction s with
  | done a => exact hf a
  | fail fault => trivial
  | tell event next ih => exact ih hs
  | ask q next ih =>
    obtain ⟨hq, hnext⟩ := hs
    exact ⟨hq, fun x hx => ih x (hnext x hx)⟩

theorem asksOnly_mapM {f : β → Script α} {l : List β} (h : ∀ x ∈ l, (f x).AsksOnly A P) :
  (l.mapM f).AsksOnly A P
  := by
  induction l with
  | nil => trivial
  | cons x l ih =>
    obtain ⟨hx, hl⟩ := List.forall_mem_cons.mp h
    rw [List.mapM_cons]
    apply hx.bind
    intro y
    apply (ih hl).bind
    intro ys
    apply asksOnly_done

theorem asksOnly_forM_log {l : List β} {event : β → Event} :
  (l.forM fun x => log (event x)).AsksOnly A P
  := by
  induction l with
  | nil => trivial
  | cons x l ih => exact ih

/-! ### Runs -/

/-- A run asks what the script may ask. -/
theorem AsksOnly.calls {σ : Type} {source : Source σ} {s : Script α}
    (h : s.AsksOnly source.possible P) (st : σ) :
  ∀ q ∈ (s.run source st).1.calls, P q
  := by
  induction s generalizing st with
  | done a => apply List.forall_mem_nil
  | fail fault => apply List.forall_mem_nil
  | tell event next ih => exact ih h st
  | ask q next ih =>
    obtain ⟨hq, hnext⟩ := h
    cases hr : (source.reply q st).1.result with
    | ok x =>
      rw [run_ask_ok hr]
      exact List.forall_mem_cons.mpr ⟨hq, ih x (hnext x ⟨st, hr⟩) _⟩
    | error fault =>
      rw [run_ask_error hr]
      exact List.forall_mem_singleton.mpr hq

/-- With given answers a script asks what it may ask. -/
theorem AsksOnly.asked {a : Answers} {s : Script α} (h : s.AsksOnly a.given P) :
  ∀ q ∈ s.asked a, P q
  := by
  induction s with
  | done x => apply List.forall_mem_nil
  | fail fault => apply List.forall_mem_nil
  | tell event next ih => exact ih h
  | ask q next ih =>
    obtain ⟨hq, hnext⟩ := h
    rw [Script.asked]
    cases hx : a q with
    | ok x => exact List.forall_mem_cons.mpr ⟨hq, ih x (hnext x hx)⟩
    | error fault => exact List.forall_mem_singleton.mpr hq

/-- The questions of a run behind a filter are those that reach the source, in order. -/
theorem run_recording {σ : Type} (source : Source σ) (f : Filter) (s : Script α) (st : σ)
    (reached : List Query) :
  s.run (source.recording.filtered f) (st, reached)
    = ((s.run (source.filtered f) st).1, (s.run (source.filtered f) st).2,
      reached ++ (s.run (source.filtered f) st).1.calls)
  := by
  induction s generalizing st reached with
  | done a =>
    apply congrArg (Prod.mk _ ∘ Prod.mk st)
    exact (List.append_nil reached).symm
  | fail fault =>
    apply congrArg (Prod.mk _ ∘ Prod.mk st)
    exact (List.append_nil reached).symm
  | tell event next ih =>
    simp only [run, Bind.bind, StateT.bind, ih]
    rfl
  | ask q next ih =>
    have hreply : (source.recording.filtered f).reply q (st, reached)
        = (((source.filtered f).reply q st).1, ((source.filtered f).reply q st).2,
          reached ++ [q]) := rfl
    simp only [run, Bind.bind, StateT.bind, hreply]
    generalize (source.filtered f).reply q st = r
    obtain ⟨⟨result, events⟩, st'⟩ := r
    cases result with
    | error fault => rfl
    | ok answer =>
      have hnext := ih answer st' (reached ++ [q])
      rw [List.append_assoc] at hnext
      simp only [StateT.bind, Bind.bind, hnext]
      rfl

end Script

end DetachedSchema
