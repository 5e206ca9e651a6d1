import DetachedSchema.Proofs.Script.Outcome

/-!
# Scripts that ask alike

One script follows another when it asks what the other asks for as long as it goes on.  It may give
up before the other does, and when it comes to its end both have asked the same and the other comes
to its end, too.  What a script asks and ends with depends only on the answers to what it asks, and
the first of them that is a fault is the last that it asks for.
-/

namespace DetachedSchema.Script

variable {α β γ δ : Type} {a : Answers}

/-- As long as `s` goes on it asks what `t` asks, and it ends with a result only when `t` does. -/
structure Follows (a : Answers) (s : Script α) (t : Script β) : Prop where
  asked : s.asked a <+: t.asked a
  ended : ∀ x, s.outcome a = .ok x → s.asked a = t.asked a ∧ ∃ y, t.outcome a = .ok y

theorem follows_done {x : α} {y : β} :
  (done x).Follows a (done y)
  := ⟨List.prefix_rfl, fun _ _ => ⟨rfl, y, rfl⟩⟩

/-- Both ask a question, and go on alike when there is an answer. -/
theorem follows_ask {q : Query} {f : q.Answer → Script α} {g : q.Answer → Script β}
    (h : ∀ x, a q = .ok x → (f x).Follows a (g x)) :
  (ask q f).Follows a (ask q g)
  := by
  cases hq : a q with
  | ok x =>
    obtain ⟨hasked, hended⟩ := h x hq
    constructor
    · rw [Script.asked_ask hq, Script.asked_ask hq]
      apply List.cons_prefix_cons.mpr ⟨rfl, hasked⟩
    · intro y hy
      rw [Script.asked_ask hq, Script.asked_ask hq, outcome, hq]
      rw [outcome, hq] at hy
      obtain ⟨heq, hresult⟩ := hended y hy
      exact ⟨congrArg (q :: ·) heq, hresult⟩
  | error fault =>
    constructor
    · simp [Script.asked, hq]
    · intro y hy
      rw [outcome, hq] at hy
      cases hy

/-- What asks nothing may come before the script that follows. -/
theorem follows_of_quiet {s : Script α} {f : α → Script β} {t : Script γ} (hs : s.asked a = [])
    (h : ∀ x, s.outcome a = .ok x → (f x).Follows a t) :
  (s.bind f).Follows a t
  := by
  cases hx : s.outcome a with
  | ok x =>
    obtain ⟨hasked, hended⟩ := h x hx
    constructor
    · rwa [asked_bind_of_quiet hs hx]
    · intro y hy
      rw [outcome_bind, hx] at hy
      rw [asked_bind_of_quiet hs hx]
      apply hended y hy
  | error fault =>
    constructor
    · rw [asked_bind, hs, hx]
      apply List.nil_prefix
    · intro y hy
      rw [outcome_bind, hx] at hy
      cases hy

/-- An event may be told before the script that is followed. -/
theorem Follows.log {s : Script α} {t : Script β} (h : s.Follows a t) (event : Event) :
  s.Follows a ((Script.log event).bind fun _ => t)
  := ⟨h.asked, h.ended⟩

/-- Scripts that follow others one after the other. -/
theorem Follows.bind {s : Script α} {t : Script β} {f : α → Script γ} {g : β → Script δ}
    (h : s.Follows a t) (hnext : ∀ x y, t.outcome a = .ok y → (f x).Follows a (g y)) :
  (s.bind f).Follows a (t.bind g)
  := by
  obtain ⟨hasked, hended⟩ := h
  cases hx : s.outcome a with
  | ok x =>
    obtain ⟨heq, y, hy⟩ := hended x hx
    obtain ⟨hrest, hall⟩ := hnext x y hy
    constructor
    · rw [asked_bind_of_ok hx, asked_bind_of_ok hy, heq]
      apply (List.prefix_append_right_inj _).mpr hrest
    · intro z hz
      rw [outcome_bind, hx] at hz
      rw [asked_bind_of_ok hx, asked_bind_of_ok hy, heq, outcome_bind, hy]
      obtain ⟨heq', hresult⟩ := hall z hz
      exact ⟨congrArg _ heq', hresult⟩
  | error fault =>
    constructor
    · rw [asked_bind, hx, List.append_nil, asked_bind]
      apply hasked.trans (List.prefix_append _ _)
    · intro z hz
      rw [outcome_bind, hx] at hz
      cases hz

/-- Scripts for the members of a list follow each other when they do member by member; one of them
may count the members. -/
theorem follows_mapM_zipIdx {f : α × Nat → Script β} {g : α → Script γ} {l : List α}
    (h : ∀ x i, (f (x, i)).Follows a (g x)) :
  (l.zipIdx.mapM f).Follows a (l.mapM g)
  := by
  -- The induction needs the count to begin anywhere.
  suffices hn : ∀ n, ((l.zipIdx n).mapM f).Follows a (l.mapM g) from hn 0
  induction l with
  | nil =>
    intro n
    apply follows_done
  | cons x l ih =>
    intro n
    rw [List.zipIdx_cons, List.mapM_cons, List.mapM_cons]
    apply (h x n).bind
    intro y z _
    apply (ih (n + 1)).bind
    intro ys zs _
    apply follows_done

/-! ### Answers that agree -/

/-- Answers that agree on what a script asks give it one outcome and the same questions. -/
theorem outcome_congr {b : Answers} {s : Script α} (h : ∀ q ∈ s.asked a, b q = a q) :
  s.outcome b = s.outcome a ∧ s.asked b = s.asked a
  := by
  induction s with
  | done x => exact ⟨rfl, rfl⟩
  | fail fault => exact ⟨rfl, rfl⟩
  | tell event next ih => exact ih h
  | ask q next ih =>
    have hq : b q = a q := h q (by rw [Script.asked]; apply List.mem_cons_self)
    cases hx : a q with
    | ok x =>
      rw [Script.asked_ask hx] at h
      obtain ⟨houtcome, hasked⟩ := ih x fun q' hq' => h q' (List.mem_cons_of_mem _ hq')
      rw [outcome, outcome, Script.asked_ask hx, Script.asked_ask (hq.trans hx), hq, hx]
      exact ⟨houtcome, congrArg (q :: ·) hasked⟩
    | error fault =>
      rw [outcome, outcome, Script.asked, Script.asked, hq, hx]
      exact ⟨rfl, rfl⟩

/-- When one of the questions of a script has a fault for an answer and the others have the answers
that they had, the script asks what it asked up to that question and ends with the fault. -/
theorem outcome_of_fault {b : Answers} {c : Query} {fault : Fault} (hfault : b c = .error fault)
    (hothers : ∀ q, q ≠ c → b q = a q) {s : Script α} (hc : c ∈ s.asked a) :
  s.outcome b = .error fault
    ∧ ∃ before after, s.asked a = before ++ c :: after ∧ c ∉ before ∧ s.asked b = before ++ [c]
  := by
  induction s with
  | done x => cases hc
  | fail fault => cases hc
  | tell event next ih => exact ih hc
  | ask q next ih =>
    by_cases hq : q = c
    · obtain rfl := hq
      rw [outcome, hfault, Script.asked, Script.asked, hfault]
      exact ⟨rfl, [], _, rfl, List.not_mem_nil, rfl⟩
    · have hne : c ≠ q := fun h => hq h.symm
      rw [Script.asked, List.mem_cons, or_iff_right hne] at hc
      cases hx : a q with
      | error fault' =>
        rw [hx] at hc
        cases hc
      | ok x =>
        rw [hx] at hc
        obtain ⟨houtcome, before, after, hall, hbefore, hasked⟩ := ih x hc
        have hb : b q = .ok x := (hothers q hq).trans hx
        rw [outcome, hb, Script.asked_ask hx, Script.asked_ask hb, hall, hasked]
        refine ⟨houtcome, q :: before, after, rfl, ?_, rfl⟩
        apply List.not_mem_cons_of_ne_of_not_mem hne hbefore

end DetachedSchema.Script
