import DetachedSchema.Proofs.Digits
import DetachedSchema.Proofs.Yaml.Block
import DetachedSchema.Proofs.Yaml.Reading

/-!
# Styles

Whatever style a text is written in can hold the text, and numbers are written plainly.
-/

namespace DetachedSchema.Yaml.Scalar

open Glyph

variable {cs : List Char}

/-! ### Marks -/

/-- The characters that a plain scalar may not start with. -/
def marks : List Char := "#,[]\x7b\x7d&*!|>'\"%@\x60".toList

/-- A text that does not start like a mark starts with none, and with no question mark, colon or
dash in front of a gap. -/
theorem startsWithMark_cons {x : Char} (h : startsWithMark (x :: cs) = false) :
  x ∉ marks ∧ (x = '?' ∨ x = ':' ∨ x = '-' → isBlankOrEnd (cs.headD endMark) = false)
  := by
  unfold startsWithMark at h
  split at h
  next => cases h
  next => cases h
  next heq =>
    cases heq
    rw [Bool.or_eq_false_iff, List.contains_eq_mem, decide_eq_false_iff_not,
      Bool.and_eq_false_iff] at h
    use h.1
    rintro hx
    obtain hno | hblank := h.2
    · simp only [Bool.or_eq_false_iff, decide_eq_false_iff_not] at hno
      obtain rfl | rfl | rfl := hx
      · exact absurd rfl hno.1.1
      · exact absurd rfl hno.1.2
      · exact absurd rfl hno.2
    · exact hblank
  next heq => cases heq

/-- What is written plainly does not start like a mark. -/
theorem startsWithMark_of_fitsPlain (h : fitsPlain cs) :
  startsWithMark cs = false
  := by
  simp only [fitsPlain, Bool.and_eq_true, Bool.not_eq_true'] at h
  exact h.1.1.1.1.1

/-- What cannot be a mark does not start one. -/
theorem startsWithMark_eq_false {p : Char → Bool} {x : Char}
    (hp : ('.' :: '?' :: ':' :: '-' :: marks).any p = false) (hx : p x) (cs : List Char) :
  startsWithMark (x :: cs) = false
  := by
  have hne : ∀ y ∈ '.' :: '?' :: ':' :: '-' :: marks, x ≠ y := by
    rintro y hy rfl
    exact List.any_eq_false.mp hp x hy hx
  have hmarks : x ∉ marks := fun hmem => hne x (by simp [hmem]) rfl
  unfold startsWithMark
  split
  next heq => exact absurd (List.cons.inj heq).1 (hne '-' (by decide))
  next heq => exact absurd (List.cons.inj heq).1 (hne '.' (by decide))
  next heq =>
    cases heq
    rw [List.contains_eq_mem, Bool.or_eq_false_iff]
    exact ⟨decide_eq_false hmarks,
      by simp [hne '?' (by decide), hne ':' (by decide), hne '-' (by decide)]⟩
  next heq => cases heq

/-! ### Numbers -/

/-- Whether the character can be part of the notation of a number. -/
def isSignOrDigit (x : Char) : Bool := x.isDigit || x = '-'

theorem ne_of_isSignOrDigit {x y : Char} (hx : isSignOrDigit x) (hy : isSignOrDigit y = false) :
  x ≠ y
  := by
  rintro rfl
  cases hx.symm.trans hy

theorem isShown_of_isSignOrDigit {x : Char} (hx : isSignOrDigit x) :
  isShown x
  := by
  have hrange : 0x20 ≤ x.toNat ∧ x.toNat ≤ 0x7E := by
    simp only [isSignOrDigit, Bool.or_eq_true, decide_eq_true_eq] at hx
    obtain hdigit | rfl := hx
    · have hle := Char.isDigit_iff_toNat.mp hdigit
      simp only [Char.reduceToNat] at hle
      omega
    · decide
  simp [isShown, hrange.1, hrange.2]

/-- Neither a sign nor a digit ends a word. -/
theorem isBlankOrEnd_of_isSignOrDigit {x : Char} (hx : isSignOrDigit x) :
  isBlankOrEnd x = false
  := isBlankOrEnd_eq_false (by decide) hx

/-- A number is written plainly: it holds nothing that means more than itself. -/
theorem fitsPlain_of_isSignOrDigit {cs : List Char} (hstart : startsWithMark cs = false)
    (hcs : ∀ x ∈ cs, isSignOrDigit x) :
  fitsPlain cs
  := by
  have hblank : hasPair isBlankOrEnd (· = '#') cs = false :=
    hasPair_eq_false fun x hx => isBlankOrEnd_of_isSignOrDigit (hcs x hx)
  have hcolon : hasPair (· = ':') isBlankOrEnd cs.tail = false :=
    hasPair_eq_false fun x hx =>
      decide_eq_false (ne_of_isSignOrDigit (hcs x (List.mem_of_mem_tail hx)) rfl)
  have hshown : cs.all isShown :=
    List.all_eq_true.mpr fun x hx => isShown_of_isSignOrDigit (hcs x hx)
  have hbreak : cs.any isBreak = false := List.any_eq_false.mpr fun x hx => by
    rw [isBreak_of_isBlankOrEnd (isBlankOrEnd_of_isSignOrDigit (hcs x hx))]
    exact Bool.false_ne_true
  have hno : ∀ y, isSignOrDigit y = false → y ∉ cs :=
    fun y hy hmem => ne_of_isSignOrDigit (hcs y hmem) hy rfl
  have hend : cs.tail.getLast? ≠ some ':' := fun h =>
    hno ':' rfl (List.mem_of_mem_tail (List.mem_of_getLast? h))
  have hfirst : cs.head? ≠ some ' ' := fun h => hno ' ' rfl (List.mem_of_head? h)
  have hlast : cs.getLast? ≠ some ' ' := fun h => hno ' ' rfl (List.mem_of_getLast? h)
  simp [fitsPlain, holdsMark, hstart, hblank, hcolon, hshown, hbreak, hend, hfirst, hlast]

/-- A number does not start like a mark, with or without a sign. -/
theorem startsWithMark_of_isDigit {x : Char} (hx : x.isDigit) (cs : List Char) :
  startsWithMark (x :: cs) = false ∧ startsWithMark ('-' :: x :: cs) = false
  := by
  refine ⟨startsWithMark_eq_false (by decide) hx cs, ?_⟩
  unfold startsWithMark
  split
  next heq =>
    obtain rfl := (List.cons.inj (List.cons.inj heq).2).1
    cases hx
  next heq => cases heq
  next heq =>
    cases heq
    have hblank : isBlankOrEnd x = false := isBlankOrEnd_eq_false (by decide) hx
    simp [hblank]
  next heq => cases heq

/-- Digits are written plainly, also behind a sign. -/
theorem fitsPlain_digits {cs : List Char} (hne : cs ≠ []) (hcs : ∀ x ∈ cs, x.isDigit) :
  fitsPlain cs ∧ fitsPlain ('-' :: cs)
  := by
  obtain ⟨x, cs, rfl⟩ := List.exists_cons_of_ne_nil hne
  obtain ⟨hstart, hstart'⟩ := startsWithMark_of_isDigit (hcs x List.mem_cons_self) cs
  have hdigits : ∀ y ∈ x :: cs, isSignOrDigit y := fun y hy => by simp [isSignOrDigit, hcs y hy]
  exact ⟨fitsPlain_of_isSignOrDigit hstart hdigits,
    fitsPlain_of_isSignOrDigit hstart' (List.forall_mem_cons.mpr ⟨rfl, hdigits⟩)⟩

/-- Every number is written plainly. -/
theorem fitsPlain_number (n : Int) :
  fitsPlain (toString n).toList
  := by
  have hdigits : ∀ n : Nat, ∀ x ∈ Nat.toDigits 10 n, x.isDigit := fun _ _ => Digits.isDigit_of_mem
  obtain ⟨n, rfl | rfl⟩ := Int.eq_nat_or_neg n
  · rw [Plain.toList_toString_ofNat]
    exact (fitsPlain_digits (by simp) (hdigits n)).1
  · by_cases hn : n = 0
    · subst hn
      decide
    · rw [Plain.toList_toString_neg hn]
      exact (fitsPlain_digits (by simp) (hdigits n)).2

/-! ### Texts -/

/-- What a text is like that is written in the style. -/
def Holds (cs : List Char) : Style → Prop
  | .plain => fitsPlain cs
  | .singleQuoted => IsQuotable cs
  | .doubleQuoted => True
  | .literal => (∀ x ∈ cs, isShown x) ∧ cs ≠ []
  | .folded => False

/-- The style that is chosen for a text can hold it. -/
theorem holds_styleOf (cs : List Char) :
  Holds cs (styleOf cs)
  := by
  rw [styleOf]
  split
  next hline =>
    split
    next hfits =>
      simp only [fitsBlock, Bool.and_eq_true, List.all_eq_true] at hfits
      refine ⟨hfits.1.1, ?_⟩
      rintro rfl
      cases hline
    next => trivial
  next hline =>
    split
    next hfits =>
      rw [Bool.and_eq_true] at hfits
      exact hfits.1
    next =>
      split
      next hfits =>
        simp only [fitsQuotes, Bool.and_eq_true, Bool.not_eq_true', List.all_eq_true] at hfits
        exact ⟨hfits.1.1, hfits.1.2, hfits.2, by simpa using hline⟩
      next => trivial

end DetachedSchema.Yaml.Scalar
