import DetachedSchema.Proofs.Yaml.Glyph
import DetachedSchema.Yaml.Printer

/-!
# Gaps between words

What a printed text has between its words: spaces on a line, or ends of lines with the indentation
of the next line behind them.  A character that is shown as itself is no control but a line feed.
-/

namespace DetachedSchema.Yaml

open Glyph Scalar

variable {i l c : Nat} {x : Char} {cs : List Char}

/-! ### Shown characters -/

/-- The end mark is not shown as itself, nor are a tab, a return and a next line. -/
theorem ne_of_isShown (hx : isShown x) :
  x ≠ endMark ∧ x ≠ '\t' ∧ x ≠ '\r' ∧ x ≠ '\x85'
  := by
  refine ⟨?_, ?_, ?_, ?_⟩
  all_goals
    rintro rfl
    revert hx
    decide

/-- The only blank that is shown as itself is the space. -/
theorem isBlank_eq (hx : isShown x) :
  isBlank x = decide (x = ' ')
  := by
  obtain ⟨-, htab, -⟩ := ne_of_isShown hx
  simp [isBlank, htab]

/-- A shown character ends a word when it is a space or an end of line. -/
theorem isBlankOrEnd_eq (hx : isShown x) :
  isBlankOrEnd x = (decide (x = ' ') || isBreak x)
  := by
  obtain ⟨hend, -⟩ := ne_of_isShown hx
  simp [isBlankOrEnd, isBreakOrEnd, isBlank_eq hx, hend]

/-- What cannot be a blank or an end is none. -/
theorem isBlankOrEnd_eq_false {p : Char → Bool}
    (hp : [' ', '\t', '\n', '\r', '\x85', '\u2028', '\u2029', endMark].any p = false)
    (hx : p x) :
  isBlankOrEnd x = false
  := by
  rw [← Bool.not_eq_true]
  intro hblank
  have hmem : x ∈ [' ', '\t', '\n', '\r', '\x85', '\u2028', '\u2029', endMark] := by
    simpa [isBlankOrEnd, isBlank, isBreakOrEnd, isBreak, or_assoc] using hblank
  exact List.any_eq_false.mp hp x hmem hx

theorem isBreak_space :
  isBreak ' ' = false
  := by decide

@[simp] theorem size_spaces (count : Nat) :
  size (spaces count) = count
  := by
  have hsize : ' '.utf8Size = 1 := rfl
  simp [size, spaces, hsize]

@[simp] theorem length_spaces (count : Nat) :
  (spaces count).length = count
  := List.length_replicate

/-- A gap of nothing but blanks is some number of spaces. -/
theorem exists_spaces {gap : List Char} (hne : gap ≠ []) (hspaces : ∀ x ∈ gap, x = ' ') :
  ∃ count, gap = spaces (count + 1)
  := by
  obtain ⟨x, gap, rfl⟩ := List.exists_cons_of_ne_nil hne
  exact ⟨gap.length, List.eq_replicate_iff.mpr ⟨rfl, hspaces⟩⟩

/-- Spaces stay as they are where a space stands for itself. -/
theorem flatMap_spaces {f : Char → List Char} (h : f ' ' = [' ']) (count : Nat) :
  (spaces count).flatMap f = spaces count
  := by
  induction count with
  | zero => rfl
  | succ count ih =>
    have hsucc : spaces (count + 1) = ' ' :: spaces count := List.replicate_succ
    rw [hsucc, List.flatMap_cons, h, ih]
    rfl

/-! ### Ends of lines -/

/-- An end of line that is shown stands for itself. -/
theorem lineEnd?_place (hx : isShown x) (hbreak : isBreak x) :
  lineEnd? (place i l c (x :: cs)) = some (x, place (i + x.utf8Size) (l + 1) 0 cs)
  := by
  obtain ⟨-, -, hreturn, hnext⟩ := ne_of_isShown hx
  rw [place_break hbreak hreturn]
  simp only [isBreak, hreturn, hnext, decide_false, Bool.or_false, Bool.or_eq_true,
    decide_eq_true_eq, or_assoc] at hbreak
  obtain rfl | rfl | rfl := hbreak
  · simp [lineEnd?, isBreak]
  · simp [lineEnd?]
  · simp [lineEnd?]

/-- Where no line ends, none is taken. -/
theorem lineEnd?_place_of_not (h : isBreak (cs.headD endMark) = false) :
  lineEnd? (place i l c cs) = none
  := by
  cases cs with
  | nil => rfl
  | cons x cs =>
    rw [List.headD_cons] at h
    have hne : ∀ y, isBreak y = true → x ≠ y := by
      rintro y hy rfl
      cases hy.symm.trans h
    rw [place_cons h, lineEnd?]
    simp [hne '\r' rfl, hne '\u2028' rfl, hne '\u2029' rfl, h]

/-! ### Gaps -/

section

variable {least : Int} {limit : Nat} {blanks breaks : List Char}

/-- Spaces are kept on a line and left out at its start. -/
theorem gap_spaces (count : Nat) :
  gap least (limit + count) blanks breaks (place i l c (spaces count ++ cs))
    = gap least limit (if breaks.isEmpty then spaces count ++ blanks else blanks) breaks
      (place (i + count) l (c + count) cs)
  := by
  induction count generalizing i c blanks with
  | zero => simp [spaces]
  | succ count ih =>
    have hspaces : spaces (count + 1) = ' ' :: spaces count := List.replicate_succ
    have hcomm : spaces count ++ ' ' :: blanks = ' ' :: (spaces count ++ blanks) := by
      rw [← List.cons_append, ← hspaces, spaces, spaces, List.replicate_succ', List.append_assoc]
      rfl
    have hsize : ' '.utf8Size = 1 := rfl
    have hindex : i + 1 + count = i + (count + 1) := by omega
    have hcolumn : c + 1 + count = c + (count + 1) := by omega
    rw [hspaces, List.cons_append, place_cons isBreak_space, ← Nat.add_assoc, gap, hsize]
    simp only [first, List.headD_cons, isBlank, decide_true, Bool.true_or, if_true, Char.reduceEq,
      decide_false, Bool.and_false, Bool.false_eq_true, if_false, List.drop_succ_cons,
      List.drop_zero]
    rw [ih, hindex, hcolumn]
    cases breaks with
    | nil => simp only [List.isEmpty_nil, if_true, hcomm, List.cons_append]
    | cons y breaks => rfl

/-- An end of line drops the blanks before it and is kept itself. -/
theorem gap_break (hx : isShown x) (hbreak : isBreak x) :
  gap least (limit + 1) blanks breaks (place i l c (x :: cs))
    = gap least limit [] (x :: breaks) (place (i + x.utf8Size) (l + 1) 0 cs)
  := by
  have hblank : isBlank x = false := by
    rw [isBlank_eq hx, decide_eq_false_iff_not]
    rintro rfl
    cases hbreak
  rw [gap]
  simp only [first_place, List.headD_cons, hblank, Bool.false_eq_true, if_false,
    lineEnd?_place hx hbreak]

/-- A gap is over where neither a blank nor an end of line stands. -/
theorem gap_stop (hblank : isBlank (cs.headD endMark) = false)
    (hbreak : isBreak (cs.headD endMark) = false) :
  gap least (limit + 1) blanks breaks (place i l c cs)
    = some (⟨blanks.reverse, breaks.reverse⟩, place i l c cs)
  := by
  rw [gap]
  simp only [first_place, hblank, Bool.false_eq_true, if_false, lineEnd?_place_of_not hbreak]

/-- Ends of lines are kept one after the other. -/
theorem gap_breaks {bs : List Char} (hbs : ∀ x ∈ bs, isShown x ∧ isBreak x) (hnil : bs ≠ []) :
  gap least (limit + bs.length) blanks breaks (place i l c (bs ++ cs))
    = gap least limit [] (bs.reverse ++ breaks) (place (i + size bs) (l + bs.length) 0 cs)
  := by
  induction bs generalizing i l c blanks breaks with
  | nil => cases hnil rfl
  | cons x bs ih =>
    obtain ⟨⟨hx, hbreak⟩, hbs⟩ := List.forall_mem_cons.mp hbs
    have hline : l + 1 + bs.length = l + (bs.length + 1) := by omega
    rw [List.length_cons, ← Nat.add_assoc, List.cons_append, gap_break hx hbreak]
    by_cases hnil : bs = []
    · subst hnil
      simp
    · rw [ih hbs hnil, size_cons, List.reverse_cons, List.append_assoc, ← Nat.add_assoc, hline]
      rfl

/-- Spaces between words. -/
theorem gapAt_spaces {count : Nat} (hlimit : count < limit)
    (hblank : isBlank (cs.headD endMark) = false) (hbreak : isBreak (cs.headD endMark) = false) :
  gapAt least limit (place i l c (spaces count ++ cs))
    = some (⟨spaces count, []⟩, place (i + count) l (c + count) cs)
  := by
  obtain ⟨limit, rfl⟩ : ∃ n, limit = n + 1 + count := ⟨limit - 1 - count, by omega⟩
  rw [gapAt, gap_spaces, gap_stop hblank hbreak]
  simp [spaces]

/-- Ends of lines with the indentation of the next line that is not empty. -/
theorem gapAt_breaks {bs : List Char} {indent : Nat} (hbs : ∀ x ∈ bs, isShown x ∧ isBreak x)
    (hnil : bs ≠ []) (hlimit : bs.length + indent < limit)
    (hblank : isBlank (cs.headD endMark) = false) (hbreak : isBreak (cs.headD endMark) = false) :
  gapAt least limit (place i l c (bs ++ (spaces indent ++ cs)))
    = some (⟨[], bs⟩, place (i + size bs + indent) (l + bs.length) indent cs)
  := by
  obtain ⟨limit, rfl⟩ : ∃ n, limit = n + 1 + indent + bs.length :=
    ⟨limit - 1 - indent - bs.length, by omega⟩
  rw [gapAt, gap_breaks hbs hnil, gap_spaces, gap_stop hblank hbreak]
  simp [hnil]

end

end DetachedSchema.Yaml
