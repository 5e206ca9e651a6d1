import DetachedSchema.Proofs.Script.Outcome

/-!
# Ends of runs

A source may answer a question differently each time, so the parts of one run of a script are runs
from states that the script does not tell.  `Script.Ends` says that some run ends with a value; a
run of a script that is put together from others ends as runs of these do.
-/

namespace DetachedSchema.Script

variable {σ α β : Type} {source : Source σ}

/-- Some run of the script against the source ends with `a`. -/
def Ends (source : Source σ) (s : Script α) (a : α) : Prop :=
  ∃ st, (s.run source st).1.result = .ok a

/-- How a run ends is one of the ways that the answers of the source allow. -/
theorem Ends.canEnd {s : Script α} {a : α} (h : s.Ends source a) :
  s.CanEnd source.possible a
  := by
  obtain ⟨st, h⟩ := h
  apply canEnd_of_run h

theorem ends_done {a b : α} (h : (done a).Ends source b) :
  a = b
  := canEnd_done.mp h.canEnd

theorem ends_ofExcept {e : Except Fault α} {a : α} (h : (ofExcept e).Ends source a) :
  e = .ok a
  := canEnd_ofExcept.mp h.canEnd

/-- A run of two scripts, one after the other, is a run of the first and a later one of the
second. -/
theorem exists_of_run_bind {s : Script α} {f : α → Script β} {st : σ} {b : β}
    (h : ((s.bind f).run source st).1.result = .ok b) :
  ∃ a, (s.run source st).1.result = .ok a ∧ (f a).Ends source b
  := by
  induction s generalizing st with
  | done a => exact ⟨a, rfl, st, h⟩
  | fail fault => cases h
  | tell event next ih => exact ih h
  | ask q next ih =>
    rw [bind] at h
    cases hr : (source.reply q st).1.result with
    | ok x =>
      rw [run_ask_ok hr] at h ⊢
      exact ih x h
    | error fault =>
      rw [run_ask_error hr] at h
      cases h

theorem Ends.bind {s : Script α} {f : α → Script β} {b : β} (h : (s >>= f).Ends source b) :
  ∃ a, s.Ends source a ∧ (f a).Ends source b
  := by
  obtain ⟨st, h⟩ := h
  obtain ⟨a, ha, hb⟩ := exists_of_run_bind h
  exact ⟨a, ⟨st, ha⟩, hb⟩

/-- What is asked is answered in some state. -/
theorem Ends.query {q : Query} {f : q.Answer → Script α} {a : α}
    (h : (Script.query q >>= f).Ends source a) :
  ∃ x, source.possible q x ∧ (f x).Ends source a
  := by
  obtain ⟨x, hx, h⟩ := h.bind
  obtain ⟨y, hy, rfl⟩ := canEnd_ask.mp hx.canEnd
  exact ⟨y, hy, h⟩

/-- Scripts that are run for the members of a list end with what some run for a member ends with. -/
theorem Ends.mapM {f : β → Script α} {l : List β} {ys : List α} (h : (l.mapM f).Ends source ys) :
  ∀ y ∈ ys, ∃ x ∈ l, (f x).Ends source y
  := by
  induction l generalizing ys with
  | nil =>
    obtain rfl := ends_done h
    exact List.forall_mem_nil _
  | cons x l ih =>
    rw [List.mapM_cons] at h
    obtain ⟨y, hy, h⟩ := h.bind
    obtain ⟨zs, hzs, h⟩ := h.bind
    obtain rfl := ends_done h
    rw [List.forall_mem_cons]
    constructor
    · exact ⟨x, List.mem_cons_self, hy⟩
    · intro z hz
      obtain ⟨x', hx', hends⟩ := ih hzs z hz
      exact ⟨x', List.mem_cons_of_mem x hx', hends⟩

end DetachedSchema.Script
