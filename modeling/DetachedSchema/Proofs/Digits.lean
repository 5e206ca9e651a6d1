import Mathlib.Algebra.Ring.Nat
import Mathlib.Tactic.Common

/-!
# Decimal digits

What the digits of a number look like: there is one, all of them are digits, and only zero starts
with a zero.
-/

namespace DetachedSchema.Digits

theorem isDigit_of_mem {n : Nat} {c : Char} (h : c ∈ Nat.toDigits 10 n) :
  c.isDigit
  := Nat.isDigit_of_mem_toDigits (by decide) (by decide) h

theorem exists_cons (n : Nat) :
  ∃ c cs, Nat.toDigits 10 n = c :: cs ∧ c.isDigit
  := by
  obtain ⟨c, cs, hcs⟩ :=
    List.exists_cons_of_ne_nil (Nat.toDigits_ne_nil : Nat.toDigits 10 n ≠ [])
  have hc : c ∈ Nat.toDigits 10 n := by
    rw [hcs]
    apply List.mem_cons_self
  exact ⟨c, cs, hcs, isDigit_of_mem hc⟩

/-- Only zero has digits that start with a zero. -/
theorem head?_ne {n : Nat} (hn : n ≠ 0) :
  (Nat.toDigits 10 n).head? ≠ some '0'
  := by
  induction n using Nat.strongRecOn with
  | ind n ih =>
    rw [Nat.toDigits_eq_if (by decide)]
    split
    next hlt =>
      have hdigit : ∀ d < 10, d ≠ 0 → Nat.digitChar d ≠ '0' := by decide
      simpa using hdigit n hlt hn
    next hge =>
      rw [List.head?_append, Option.or_of_isSome]
      · apply ih (n / 10) (by omega) (by omega)
      · simp

/-- A zero in front of digits is the only digit. -/
theorem eq_nil_of_zero {n : Nat} {cs : List Char} (h : Nat.toDigits 10 n = '0' :: cs) :
  cs = []
  := by
  by_cases hn : n = 0
  · rw [hn, Nat.toDigits_zero] at h
    exact (List.cons.inj h).2.symm
  · apply (head?_ne hn _).elim
    rw [h]
    rfl

end DetachedSchema.Digits
