import DetachedSchema.Proofs.Script.Outcome
import DetachedSchema.Proofs.Traversal

/-!
# What a script tells

When answers are given, a script tells one list of events, apart from those that the source tells
when it replies.  A script that goes on with the result of another tells its events behind those of
the other.
-/

namespace DetachedSchema.Script

variable {α β γ : Type} {a : Answers}

/-- The events that the script tells when the answers are `a`. -/
def told (a : Answers) : Script α → List Event
  | .done _ => []
  | .fail _ => []
  | .tell event next => event :: next.told a
  | .ask q next => match a q with
    | .ok x => (next x).told a
    | .error _ => []

@[simp]
theorem told_done {x : α} :
  (done x).told a = []
  := rfl

@[simp]
theorem told_log {event : Event} :
  (log event).told a = [event]
  := rfl

@[simp]
theorem told_ofExcept {e : Except Fault α} :
  (ofExcept e).told a = []
  := by cases e <;> rfl

theorem told_ask {q : Query} {next : q.Answer → Script α} {x : q.Answer} (h : a q = .ok x) :
  (ask q next).told a = (next x).told a
  := by rw [told, h]

/-- What follows is told only when there is a result. -/
theorem told_bind {s : Script α} {f : α → Script β} :
  (s.bind f).told a = s.told a ++ match s.outcome a with
    | .ok x => (f x).told a
    | .error _ => []
  := by
  induction s with
  | done x => rfl
  | fail fault => rfl
  | tell event next ih => exact congrArg (event :: ·) ih
  | ask q next ih =>
    cases hq : a q with
    | ok x =>
      rw [bind, told_ask hq, told_ask hq, ih, outcome, hq]
      rfl
    | error fault =>
      rw [bind, told, told, outcome, hq]
      rfl

theorem told_bind_of_ok {s : Script α} {f : α → Script β} {x : α} (h : s.outcome a = .ok x) :
  (s.bind f).told a = s.told a ++ (f x).told a
  := by rw [told_bind, h]

theorem told_forM_log {l : List β} {event : β → Event} :
  (l.forM fun x => log (event x)).told a = l.map event
  := by
  induction l with
  | nil => rfl
  | cons x l ih => exact congrArg (event x :: ·) ih

/-- When nothing fails, the events are those for the members, in order. -/
theorem told_mapM {f : β → Script α} {l : List β} (h : ∀ x ∈ l, ∃ y, (f x).outcome a = .ok y) :
  (l.mapM f).told a = l.flatMap fun x => (f x).told a
  := by
  induction l with
  | nil => rfl
  | cons x l ih =>
    obtain ⟨⟨y, hy⟩, hl⟩ := List.forall_mem_cons.mp h
    rw [List.mapM_cons, bind_eq, told_bind_of_ok hy, bind_eq, told_bind, ih hl, List.flatMap_cons]
    cases (l.mapM f).outcome a with
    | ok ys => simp
    | error fault => simp

/-- The events of scripts for the entries of members are those for the members, when they do not
depend on the count and nothing fails. -/
theorem told_mapM_zipIdx {f : α × Nat → Script β} {entry : γ → α} {events : γ → List Event}
    {l : List γ}
    (h : ∀ c ∈ l, ∀ i, (∃ b, (f (entry c, i)).outcome a = .ok b)
      ∧ (f (entry c, i)).told a = events c) :
  ((l.map entry).zipIdx.mapM f).told a = l.flatMap events
  := by
  rw [told_mapM (forall_mem_zipIdx_entry fun c hc i => (h c hc i).1)]
  apply flatMap_zipIdx_entry
  intro c hc i
  exact (h c hc i).2

end DetachedSchema.Script
