import DetachedSchema.Proofs.Yaml.Tokens

/-!
# Printed characters

All characters of a printed tree are shown as themselves, so that a reader takes the text.
-/

namespace DetachedSchema.Yaml

open Glyph Scalar Token

variable {x : Char} {cs : List Char} {t : Tree}

/-- A reader takes every character that is shown. -/
theorem isAllowed_of_isShown (hx : isShown x) :
  isAllowed x
  := by
  have hvalid := x.valid
  simp only [UInt32.isValidChar, Nat.isValidChar] at hvalid
  simp only [isShown, Bool.or_eq_true, Bool.and_eq_true, decide_eq_true_eq] at hx
  simp only [isAllowed, Bool.or_eq_true, Bool.and_eq_true, decide_eq_true_eq]
  simp only [Char.toNat] at hx ⊢
  omega

/-- All characters of a text are shown. -/
def Shown (cs : List Char) : Prop := ∀ x ∈ cs, isShown x

instance : DecidablePred Shown := fun _ => decidable_of_iff _ List.all_eq_true

theorem shown_append {ds : List Char} :
  Shown (cs ++ ds) ↔ Shown cs ∧ Shown ds
  := List.forall_mem_append

theorem shown_cons :
  Shown (x :: cs) ↔ isShown x ∧ Shown cs
  := List.forall_mem_cons

theorem shown_spaces (count : Nat) :
  Shown (spaces count)
  := fun x hx => by
    rw [List.eq_of_mem_replicate hx]
    decide

/-- Single quotes and indentation leave a text shown. -/
theorem shown_singleQuoted (h : Shown cs) (indent : Nat) (broken : Bool) :
  Shown (singleQuoted indent broken cs)
  := by
  have hspaces : ∀ broken : Bool, Shown (if broken then spaces indent else []) := by
    intro broken
    cases broken with
    | true => exact shown_spaces indent
    | false => exact List.forall_mem_nil _
  induction cs generalizing broken with
  | nil => exact hspaces broken
  | cons x cs ih =>
    obtain ⟨hx, hcs⟩ := shown_cons.mp h
    rw [singleQuoted]
    split
    · exact shown_cons.mpr ⟨hx, ih hcs true⟩
    · refine shown_append.mpr ⟨shown_append.mpr ⟨hspaces broken, ?_⟩, ih hcs false⟩
      split
      · decide
      · exact List.forall_mem_singleton.mpr hx

/-- Indentation leaves a text shown. -/
theorem shown_indented (h : Shown cs) (indent : Nat) (broken : Bool) :
  Shown (indented indent broken cs)
  := by
  induction cs generalizing broken with
  | nil =>
    cases broken with
    | true => exact List.forall_mem_nil _
    | false => exact (by decide : Shown ['\n'])
  | cons x cs ih =>
    obtain ⟨hx, hcs⟩ := shown_cons.mp h
    rw [indented]
    split
    · exact shown_cons.mpr ⟨hx, ih hcs true⟩
    · refine shown_append.mpr ⟨?_, shown_cons.mpr ⟨hx, ih hcs false⟩⟩
      split
      · exact shown_spaces indent
      · exact List.forall_mem_nil _

/-- What is said in front of a block is shown. -/
theorem shown_blockHints (cs : List Char) :
  Shown (blockHints cs)
  := by
  have hchomping : ∀ chomping : Chomping, Shown chomping.hint := by
    intro chomping
    cases chomping with
    | clip | strip | keep => decide
  rw [blockHints_eq]
  refine shown_append.mpr ⟨?_, hchomping _⟩
  split
  · decide
  · exact List.forall_mem_nil _

/-- Between double quotes every character is shown, by an escape when it is not shown as itself. -/
theorem shown_doubleQuotedChar (x : Char) :
  Shown (doubleQuotedChar x)
  := by
  cases h : isShown x && !isBreak x && x ≠ '"' && x ≠ '\\' with
  | false =>
    obtain ⟨e, hchar, he⟩ := exists_escapes h
    rw [hchar]
    exact shown_cons.mpr ⟨by decide, fun y hy => (he.shown y hy).1⟩
  | true =>
    have hchar : doubleQuotedChar x = [x] := by
      unfold doubleQuotedChar
      exact if_pos h
    simp only [Bool.and_eq_true] at h
    rw [hchar]
    exact List.forall_mem_singleton.mpr h.1.1.1

/-- A text is shown in every style. -/
theorem shown_text (s : String) (indent : Nat) :
  Shown (Scalar.line indent s.toList)
  := by
  have hholds := holds_styleOf s.toList
  rw [Scalar.line]
  cases hstyle : styleOf s.toList with
  | plain =>
    rw [hstyle] at hholds
    exact shown_append.mpr ⟨(isPlain_of_fitsPlain hholds).shown, by decide⟩
  | singleQuoted =>
    rw [hstyle] at hholds
    have hquoted := shown_singleQuoted hholds.shown indent false
    exact shown_append.mpr ⟨shown_cons.mpr ⟨by decide, hquoted⟩, by decide⟩
  | doubleQuoted =>
    have hquoted : Shown (s.toList.flatMap doubleQuotedChar) := by
      intro x hx
      obtain ⟨y, -, hx⟩ := List.mem_flatMap.mp hx
      exact shown_doubleQuotedChar y x hx
    exact shown_append.mpr ⟨shown_cons.mpr ⟨by decide, hquoted⟩, by decide⟩
  | literal =>
    rw [hstyle] at hholds
    have hlines := shown_indented hholds.1 indent true
    exact shown_append.mpr ⟨shown_cons.mpr ⟨by decide, shown_blockHints _⟩,
      shown_cons.mpr ⟨by decide, hlines⟩⟩
  | folded =>
    rw [hstyle] at hholds
    cases hholds

/-- What is printed for a leaf is shown. -/
theorem shown_line (t : Tree) (indent : Nat) :
  Shown (line indent t)
  := by
  cases t with
  | null => exact (by decide : Shown "null\n".toList)
  | bool b =>
    cases b with
    | true => exact (by decide : Shown "true\n".toList)
    | false => exact (by decide : Shown "false\n".toList)
  | number n =>
    exact shown_append.mpr ⟨(isPlain_of_fitsPlain (fitsPlain_number n)).shown, by decide⟩
  | text s => exact shown_text s indent
  | list ts => exact (by decide : Shown "[]\n".toList)
  | record ms => exact (by decide : Shown "\x7b\x7d\n".toList)

/-- A name is shown. -/
theorem shown_name {name : String} (h : IsName name) :
  Shown name.toList
  := fun x hx => isShown_of_isLetter (h.letters x hx)

mutual

/-- What is printed for a tree behind a colon is shown when its names are. -/
theorem shown_afterColon (t : Tree) (h : t.HasNames) (column : Nat) :
  Shown (afterColon column t)
  := by
  have hleaf : Shown (' ' :: line (column + 2) t) :=
    shown_cons.mpr ⟨by decide, shown_line t (column + 2)⟩
  cases t with
  | null | bool | number | text => exact hleaf
  | list ts =>
    cases ts with
    | nil => exact hleaf
    | cons t ts => exact shown_cons.mpr ⟨by decide, shown_itemsAt (t :: ts) h column⟩
  | record ms =>
    cases ms with
    | nil => exact hleaf
    | cons m ms => exact shown_cons.mpr ⟨by decide, shown_membersAt (m :: ms) h (column + 2)⟩

/-- What is printed for a tree behind a dash is shown when its names are. -/
theorem shown_afterDash (t : Tree) (h : t.HasNames) (column : Nat) :
  Shown (afterDash column t)
  := by
  have hleaf : Shown (line column t) := shown_line t column
  cases t with
  | null | bool | number | text => exact hleaf
  | list ts =>
    cases ts with
    | nil => exact hleaf
    | cons t ts =>
      have hitem := shown_afterDash t h.1 (column + 2)
      have hdash : Shown ('-' :: ' ' :: afterDash (column + 2) t) :=
        shown_cons.mpr ⟨by decide, shown_cons.mpr ⟨by decide, hitem⟩⟩
      exact shown_append.mpr ⟨hdash, shown_itemsAt ts h.2 column⟩
  | record ms =>
    cases ms with
    | nil => exact hleaf
    | cons m ms =>
      obtain ⟨name, t⟩ := m
      have hmember := shown_afterColon t h.2.1 column
      have hname : Shown (name.toList ++ ':' :: afterColon column t) :=
        shown_append.mpr ⟨shown_name h.1, shown_cons.mpr ⟨by decide, hmember⟩⟩
      exact shown_append.mpr ⟨hname, shown_membersAt ms h.2.2 column⟩

theorem shown_itemsAt (ts : List Tree) (h : Tree.itemsHaveNames ts) (column : Nat) :
  Shown (itemsAt column ts)
  := by
  cases ts with
  | nil => exact List.forall_mem_nil _
  | cons t ts =>
    have hitem := shown_afterDash t h.1 (column + 2)
    have hdash : Shown ('-' :: ' ' :: afterDash (column + 2) t) :=
      shown_cons.mpr ⟨by decide, shown_cons.mpr ⟨by decide, hitem⟩⟩
    rw [itemsAt]
    exact shown_append.mpr
      ⟨shown_append.mpr ⟨shown_spaces column, hdash⟩, shown_itemsAt ts h.2 column⟩

theorem shown_membersAt (ms : List (String × Tree)) (h : Tree.membersHaveNames ms) (column : Nat) :
  Shown (membersAt column ms)
  := by
  cases ms with
  | nil => exact List.forall_mem_nil _
  | cons m ms =>
    obtain ⟨name, t⟩ := m
    have hmember := shown_afterColon t h.2.1 column
    have hname := shown_append.mpr ⟨shown_spaces column, shown_name h.1⟩
    rw [membersAt]
    exact shown_append.mpr ⟨shown_append.mpr ⟨hname, shown_cons.mpr ⟨by decide, hmember⟩⟩,
      shown_membersAt ms h.2.2 column⟩

end

end DetachedSchema.Yaml
