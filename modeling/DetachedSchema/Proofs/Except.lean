import Mathlib.Tactic.Common

/-!
# Results that may be errors

A computation that may fail is put together from others.  It succeeds when they all do, and then it
has the last word of the last one; else it fails as the first that fails.
-/

namespace DetachedSchema

variable {ε α β σ : Type}

/-- Two steps succeed when the first one does and the second one does on what the first one
gives. -/
theorem bind_eq_ok {x : Except ε α} {f : α → Except ε β} {b : β} :
  x >>= f = .ok b ↔ ∃ a, x = .ok a ∧ f a = .ok b
  := by
  cases x with
  | ok a => simp [Bind.bind, Except.bind]
  | error e => simp [Bind.bind, Except.bind]

/-- Two checks succeed when both do. -/
theorem then_eq_ok {x y : Except ε Unit} :
  (x >>= fun _ => y) = .ok () ↔ x = .ok () ∧ y = .ok ()
  := by
  rw [bind_eq_ok]
  constructor
  · rintro ⟨⟨⟩, hx, hy⟩
    exact ⟨hx, hy⟩
  · rintro ⟨hx, hy⟩
    exact ⟨(), hx, hy⟩

theorem isOk_iff {x : Except ε α} :
  x.isOk = true ↔ ∃ a, x = .ok a
  := by
  cases x with
  | ok a => simp [Except.isOk, Except.toBool]
  | error e => simp [Except.isOk, Except.toBool]

theorem toOption_eq_some {x : Except ε α} {a : α} :
  x.toOption = some a ↔ x = .ok a
  := by
  cases x with
  | ok a => simp [Except.toOption]
  | error e => simp [Except.toOption]

/-- What is done with a result in the end does not matter for a fault. -/
theorem bind_pure_eq_error {x : Except ε α} {f : α → β} {e : ε} :
  (x >>= fun a => pure (f a)) = .error e ↔ x = .error e
  := by
  cases x with
  | ok a => simp [Bind.bind, Except.bind, pure, Except.pure]
  | error e => simp [Bind.bind, Except.bind]

/-! ### Steps with a state -/

/-- What follows a step goes on with what the step gives, from the state that it leaves. -/
theorem bind_of_ok {r : StateT σ (Except ε) α} {f : α → StateT σ (Except ε) β} {s s' : σ} {a : α}
    (h : r s = .ok (a, s')) :
  (r >>= f) s = f a s'
  := by simp only [Bind.bind, StateT.bind, h, Except.bind]

theorem map_of_ok {r : StateT σ (Except ε) α} {f : α → β} {s s' : σ} {a : α}
    (h : r s = .ok (a, s')) :
  (f <$> r) s = .ok (f a, s')
  := by
  rw [map_eq_pure_bind, bind_of_ok h]
  rfl

end DetachedSchema
