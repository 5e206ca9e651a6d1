import DetachedSchema.Digest.Sha256
import Mathlib.Algebra.Ring.Nat
import Mathlib.Tactic.Common

/-!
# Digests and their digits

Two digests have the same digits only when they are the same, so that two messages with the same
text of a digest collide.
-/

namespace DetachedSchema.Digest.Sha256

theorem length_digitsIn (base count n : Nat) :
  (digitsIn base count n).length = count
  := by
  induction count generalizing n with
  | zero => rfl
  | succ count ih => rw [digitsIn, List.length_append, ih, List.length_singleton]

theorem lt_of_mem_digitsIn {base count n d : Nat} (hbase : 0 < base)
    (hd : d ∈ digitsIn base count n) :
  d < base
  := by
  induction count generalizing n with
  | zero => cases hd
  | succ count ih =>
    rw [digitsIn] at hd
    obtain hd | hd := List.mem_append.mp hd
    · exact ih hd
    · rw [List.mem_singleton.mp hd]
      exact Nat.mod_lt _ hbase

/-- The digits of a number that is not longer than they are determine it. -/
theorem digitsIn_inj {base count n m : Nat} (hbase : 0 < base) (hn : n < base ^ count)
    (hm : m < base ^ count) (h : digitsIn base count n = digitsIn base count m) :
  n = m
  := by
  induction count generalizing n m with
  | zero =>
    rw [Nat.pow_zero] at hn hm
    omega
  | succ count ih =>
    rw [Nat.pow_succ] at hn hm
    rw [digitsIn, digitsIn] at h
    have hlength : (digitsIn base count (n / base)).length = (digitsIn base count (m / base)).length
      := by rw [length_digitsIn, length_digitsIn]
    obtain ⟨hquotients, hremainders⟩ := List.append_inj h hlength
    have hquotient := ih ((Nat.div_lt_iff_lt_mul hbase).mpr hn)
      ((Nat.div_lt_iff_lt_mul hbase).mpr hm) hquotients
    rw [← Nat.div_add_mod n base, ← Nat.div_add_mod m base, hquotient,
      (List.cons.inj hremainders).1]

/-- A word as eight digits in base sixteen. -/
def wordText (w : UInt32) : List Char := (digitsIn 16 8 w.toNat).map Nat.digitChar

theorem map_digitChar_inj {ds ds' : List Nat} (hds : ∀ d ∈ ds, d < 16) (hds' : ∀ d ∈ ds', d < 16)
    (h : ds.map Nat.digitChar = ds'.map Nat.digitChar) :
  ds = ds'
  := by
  have hdigit : ∀ d < 16, ∀ d' < 16, Nat.digitChar d = Nat.digitChar d' → d = d' := by decide
  induction ds generalizing ds' with
  | nil => exact (List.map_eq_nil_iff.mp h.symm).symm
  | cons d ds ih =>
    cases ds' with
    | nil => cases h
    | cons d' ds' =>
      obtain ⟨hd, hds⟩ := List.forall_mem_cons.mp hds
      obtain ⟨hd', hds'⟩ := List.forall_mem_cons.mp hds'
      obtain ⟨hfirst, hrest⟩ := List.cons.inj h
      rw [hdigit d hd d' hd' hfirst, ih hds hds' hrest]

theorem wordText_injective :
  Function.Injective wordText
  := by
  intro w w' h
  have hlt : ∀ n : Nat, ∀ d ∈ digitsIn 16 8 n, d < 16 := fun _ _ => lt_of_mem_digitsIn (by decide)
  have hdigits : digitsIn 16 8 w.toNat = digitsIn 16 8 w'.toNat :=
    map_digitChar_inj (hlt _) (hlt _) h
  have hw := w.toNat_lt
  have hw' := w'.toNat_lt
  exact UInt32.toNat_inj.mp (digitsIn_inj (by decide) (by omega) (by omega) hdigits)

/-- Texts of words are as long as each other, so that their sequence falls apart in one way. -/
theorem flatMap_wordText_inj {ws ws' : List UInt32}
    (h : ws.flatMap wordText = ws'.flatMap wordText) :
  ws = ws'
  := by
  have hlength : ∀ w, (wordText w).length = 8 := by
    intro w
    rw [wordText, List.length_map, length_digitsIn]
  have hne : ∀ (w : UInt32) (cs : List Char), [] ≠ wordText w ++ cs := by
    intro w cs heq
    have hzero := congrArg List.length heq
    rw [List.length_append, hlength, List.length_nil] at hzero
    omega
  induction ws generalizing ws' with
  | nil =>
    cases ws' with
    | nil => rfl
    | cons w' ws' => cases hne _ _ h
  | cons w ws ih =>
    cases ws' with
    | nil => cases hne _ _ h.symm
    | cons w' ws' =>
      rw [List.flatMap_cons, List.flatMap_cons] at h
      obtain ⟨hword, hwords⟩ := List.append_inj h (by rw [hlength, hlength])
      rw [wordText_injective hword, ih hwords]

/-- Messages with the same text of their digests have the same digest. -/
theorem digest_eq_of_text_eq {m m' : List UInt8} (h : text m = text m') :
  digest m = digest m'
  := by
  have hwords := flatMap_wordText_inj (String.ofList_injective h)
  simp only [List.cons.injEq, and_true] at hwords
  obtain ⟨ha, hb, hc, hd, he, hf, hg, hh⟩ := hwords
  generalize digest m = s, digest m' = s' at *
  cases s
  cases s'
  simp_all

end DetachedSchema.Digest.Sha256
