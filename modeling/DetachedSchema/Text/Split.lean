/-!
# Splitting text

A text cut at every occurrence of a character.
-/

namespace DetachedSchema.Text

/-- The pieces of a text between the separators; there is one more of them than of separators. -/
def split (separator : Char) : List Char → List (List Char)
  | [] => [[]]
  | c :: cs =>
    if c = separator then [] :: split separator cs
    else match split separator cs with
      | [] => [[c]]
      | piece :: pieces => (c :: piece) :: pieces

theorem split_ne_nil (separator : Char) (cs : List Char) :
  split separator cs ≠ []
  := by
  cases cs with
  | nil => simp [split]
  | cons c cs =>
    simp only [split]
    split
    · simp
    · split <;> simp

/-- A text without separators is its only piece. -/
theorem split_of_notMem {separator : Char} {cs : List Char} (h : separator ∉ cs) :
  split separator cs = [cs]
  := by
  induction cs with
  | nil => rfl
  | cons c cs ih =>
    simp only [List.mem_cons, not_or] at h
    obtain ⟨hc, hcs⟩ := h
    rw [split, if_neg (Ne.symm hc), ih hcs]

/-- The first separator ends the first piece. -/
theorem split_append {separator : Char} {cs : List Char} (h : separator ∉ cs) (rest : List Char) :
  split separator (cs ++ separator :: rest) = cs :: split separator rest
  := by
  induction cs with
  | nil => rw [List.nil_append, split, if_pos rfl]
  | cons c cs ih =>
    simp only [List.mem_cons, not_or] at h
    obtain ⟨hc, hcs⟩ := h
    rw [List.cons_append, split, if_neg (Ne.symm hc), ih hcs]

end DetachedSchema.Text
