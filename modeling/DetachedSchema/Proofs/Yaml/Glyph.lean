import DetachedSchema.Yaml.Glyph
import Mathlib.Algebra.Ring.Nat
import Mathlib.Tactic.Common

/-!
# Placed characters

The glyphs of a text are its characters with their places and an end mark behind them.  A character
of a line moves the column on, an end of line starts the next one.
-/

namespace DetachedSchema.Yaml.Glyph

variable {i l c : Nat} {x : Char} {cs : List Char}

/-- The bytes of a text. -/
def size (cs : List Char) : Nat := (cs.map Char.utf8Size).sum

@[simp] theorem size_nil :
  size [] = 0
  := rfl

@[simp] theorem size_cons (x : Char) (cs : List Char) :
  size (x :: cs) = x.utf8Size + size cs
  := rfl

@[simp] theorem size_append (cs ds : List Char) :
  size (cs ++ ds) = size cs + size ds
  := by simp [size]

/-! ### Places -/

/-- A character of a line moves the column on by one, and the place by its bytes. -/
theorem place_cons (hx : isBreak x = false) :
  place i l c (x :: cs) = ⟨x, i, l, c⟩ :: place (i + x.utf8Size) l (c + 1) cs
  := by
  cases cs with
  | nil => simp [place, hx]
  | cons y cs => simp [place, hx]

/-- An end of line starts the next line at its first column. -/
theorem place_break (hx : isBreak x = true) (hreturn : x ≠ '\r') :
  place i l c (x :: cs) = ⟨x, i, l, c⟩ :: place (i + x.utf8Size) (l + 1) 0 cs
  := by
  cases cs with
  | nil => simp [place, hx]
  | cons y cs => simp [place, hx, hreturn]

/-- Passing over a character leads to the place behind it. -/
theorem drop_place (hx : isBreak x = false) :
  (place i l c (x :: cs)).drop 1 = place (i + x.utf8Size) l (c + 1) cs
  := by
  rw [place_cons hx]
  rfl

/-- The glyphs of characters within a line. -/
theorem place_append {w : List Char} (hw : ∀ x ∈ w, isBreak x = false) :
  ∃ gs, place i l c (w ++ cs) = gs ++ place (i + size w) l (c + w.length) cs ∧ chars gs = w
  := by
  induction w generalizing i c with
  | nil => exact ⟨[], rfl, rfl⟩
  | cons x w ih =>
    obtain ⟨hx, hw⟩ := List.forall_mem_cons.mp hw
    obtain ⟨gs, hgs, hchars⟩ := ih hw (i := i + x.utf8Size) (c := c + 1)
    refine ⟨⟨x, i, l, c⟩ :: gs, ?_, congrArg (x :: ·) hchars⟩
    rw [List.cons_append, place_cons hx, hgs, size_cons, List.length_cons, List.cons_append,
      Nat.add_assoc, Nat.add_right_comm c, Nat.add_assoc c]

/-! ### First characters -/

/-- The characters of placed glyphs are those of the text, with the end mark behind them. -/
theorem chars_place :
  chars (place i l c cs) = cs ++ [endMark]
  := by
  induction cs generalizing i l c with
  | nil => rfl
  | cons x cs ih =>
    cases cs with
    | nil =>
      rw [place]
      split
      · rfl
      · rfl
    | cons y cs =>
      rw [place]
      split
      · exact congrArg (x :: ·) ih
      · exact congrArg (x :: ·) ih

/-- There is one more glyph than there are characters. -/
theorem length_place :
  (place i l c cs).length = cs.length + 1
  := by
  have hchars : chars (place i l c cs) = cs ++ [endMark] := chars_place
  simpa [chars] using congrArg List.length hchars

/-- The first glyph is the first character of the text, or the end mark. -/
theorem exists_place (i l c : Nat) (cs : List Char) :
  ∃ gs, place i l c cs = ⟨cs.headD endMark, i, l, c⟩ :: gs
  := by
  fun_cases place i l c cs with
  | case1 => exact ⟨_, rfl⟩
  | case2 => exact ⟨_, rfl⟩
  | case3 => exact ⟨_, rfl⟩

@[simp] theorem first_place :
  first (place i l c cs) = ⟨cs.headD endMark, i, l, c⟩
  := by
  obtain ⟨gs, hgs⟩ := exists_place i l c cs
  rw [hgs]
  rfl

/-- Characters of a line that have been passed over. -/
theorem drop_place_append {w : List Char} (hw : ∀ x ∈ w, isBreak x = false) :
  (place i l c (w ++ cs)).drop w.length = place (i + size w) l (c + w.length) cs
  := by
  obtain ⟨gs, hgs, hchars⟩ : ∃ gs, place i l c (w ++ cs) = gs ++ place _ l _ cs ∧ chars gs = w :=
    place_append hw
  rw [hgs, ← hchars, chars, List.length_map, List.drop_left]

/-- Beyond the end of the glyphs there are end marks. -/
theorem charAt_eq (gs : List Glyph) (n : Nat) :
  charAt gs n = ((chars gs).drop n).headD endMark
  := by
  rw [charAt, char₀, first, chars, ← List.map_drop]
  cases gs.drop n with
  | nil => rfl
  | cons g gs => rfl

@[simp] theorem char₀_place :
  char₀ (place i l c cs) = cs.headD endMark
  := by rw [char₀, first_place]

/-- The character some places on is that of the text, as far as it goes. -/
@[simp] theorem charAt_place (n : Nat) :
  charAt (place i l c cs) n = (cs.drop n).headD endMark
  := by
  rw [charAt_eq, chars_place, List.drop_append]
  cases hdrop : cs.drop n with
  | nil =>
    have hn : cs.length ≤ n := List.drop_eq_nil_iff.mp hdrop
    cases n - cs.length with
    | zero => rfl
    | succ k => simp
  | cons x rest => rfl

end DetachedSchema.Yaml.Glyph
