import DetachedSchema.Proofs.Yaml.Gap
import Mathlib.Data.List.TakeWhile

/-!
# Reading plain scalars

A text that is written plainly is read up to the end of its line: no colon in front of a blank ends
it, no number sign behind one starts a comment, and the next line belongs to something else.
-/

namespace DetachedSchema.Yaml.Scalar

open Glyph

variable {i l c : Nat} {x : Char} {cs : List Char}

/-! ### Neighbours -/

/-- The first pair of neighbours is at the start, or it is further on. -/
theorem hasPair_cons {first second : Char → Bool} :
  hasPair first second (x :: cs) = (first x && cs.head?.any second || hasPair first second cs)
  := by
  cases cs with
  | nil => simp [hasPair]
  | cons y cs => simp [hasPair]

/-- What has no such neighbours has none in its back part. -/
theorem hasPair_append {first second : Char → Bool} {cs ds : List Char}
    (h : hasPair first second (cs ++ ds) = false) :
  hasPair first second ds = false
  := by
  induction cs with
  | nil => exact h
  | cons x cs ih =>
    rw [List.cons_append, hasPair_cons, Bool.or_eq_false_iff] at h
    exact ih h.2

/-- What has no such neighbours has none in its front part. -/
theorem hasPair_left {first second : Char → Bool} {cs ds : List Char}
    (h : hasPair first second (cs ++ ds) = false) :
  hasPair first second cs = false
  := by
  induction cs with
  | nil => rfl
  | cons x cs ih =>
    rw [List.cons_append, hasPair_cons, Bool.or_eq_false_iff] at h
    rw [hasPair_cons, ih h.2, Bool.or_false]
    cases cs with
    | nil => simp
    | cons y cs => exact h.1

theorem hasPair_eq_false {first second : Char → Bool} {cs : List Char}
    (h : ∀ x ∈ cs, first x = false) :
  hasPair first second cs = false
  := by
  induction cs with
  | nil => rfl
  | cons x cs ih =>
    obtain ⟨hx, hcs⟩ := List.forall_mem_cons.mp h
    rw [hasPair_cons, hx, ih hcs]
    rfl

/-- Another character at the end adds the pair of the last two. -/
theorem hasPair_snoc {first second : Char → Bool} {cs : List Char} {y : Char} :
  hasPair first second (cs ++ [y])
    = (hasPair first second cs || cs.getLast?.any first && second y)
  := by
  induction cs with
  | nil => rfl
  | cons x cs ih =>
    rw [List.cons_append, hasPair_cons, hasPair_cons, ih]
    cases cs with
    | nil => simp [hasPair]
    | cons z cs => simp [Bool.or_assoc]

/-- A text is free of gaps, or it goes up to a gap and then on from its end. -/
theorem exists_gap (isGap : Char → Bool) (cs : List Char) :
  (∀ x ∈ cs, isGap x = false) ∨ ∃ word gap rest, cs = word ++ (gap ++ rest)
    ∧ (∀ x ∈ word, isGap x = false) ∧ gap ≠ [] ∧ (∀ x ∈ gap, isGap x)
    ∧ ∀ x ∈ rest.head?, isGap x = false
  := by
  by_cases hall : ∀ x ∈ cs, isGap x = false
  · exact .inl hall
  right
  obtain ⟨word, x, after, rfl, hword, hx⟩ : ∃ word x after, cs = word ++ x :: after
      ∧ (∀ x ∈ word, isGap x = false) ∧ isGap x := by
    obtain ⟨y, hy, hgap⟩ : ∃ y ∈ cs, isGap y := by simpa using hall
    obtain ⟨hfind, word, after, hcs, hword⟩ := List.find?_eq_some_iff_append.mp
      (Option.some_get (List.find?_isSome.mpr ⟨y, hy, hgap⟩)).symm
    exact ⟨word, _, after, hcs, by simpa using hword, hfind⟩
  refine ⟨word, x :: after.takeWhile isGap, after.dropWhile isGap, ?_, hword, List.cons_ne_nil _ _,
    ?_, ?_⟩
  · rw [List.cons_append, List.takeWhile_append_dropWhile]
  · exact List.forall_mem_cons.mpr ⟨hx, fun _ => List.mem_takeWhile_imp⟩
  · intro y hy
    have hhead := List.head?_dropWhile_not isGap after
    rw [Option.mem_def.mp hy] at hhead
    exact hhead

/-! ### Words -/

/-- A word ends in front of a blank, of the end of a line and of the end of the text. -/
theorem plainWord_blank (h : isBlankOrEnd (cs.headD endMark)) :
  plainWord false (place i l c cs) = some ([], place i l c cs)
  := by
  obtain ⟨gs, hgs⟩ := exists_place i l c cs
  rw [hgs, plainWord, if_pos h]

/-- A word ends at a colon in front of one of them. -/
theorem plainWord_colon (h : isBlankOrEnd (cs.headD endMark)) :
  plainWord false (place i l c (':' :: cs)) = some ([], place i l c (':' :: cs))
  := by
  have hbreak : isBreak ':' = false := rfl
  have hblank : isBlankOrEnd ':' = false := rfl
  rw [place_cons hbreak, plainWord, char₀_place, h, hblank]
  rfl

/-- A word goes on as long as no blank follows, on its own or behind a colon. -/
theorem plainWord_place {word : List Char} (hword : ∀ x ∈ word, isBlankOrEnd x = false)
    (hcolon : hasPair (· = ':') isBlankOrEnd (word ++ [cs.headD endMark]) = false)
    (hstop : ∀ i c, plainWord false (place i l c cs) = some ([], place i l c cs)) :
  plainWord false (place i l c (word ++ cs))
    = some (word, place (i + size word) l (c + word.length) cs)
  := by
  induction word generalizing i c with
  | nil => exact hstop i c
  | cons x word ih =>
    obtain ⟨hx, hword⟩ := List.forall_mem_cons.mp hword
    rw [List.cons_append, hasPair_cons, Bool.or_eq_false_iff] at hcolon
    have hbreak : isBreak x = false := by
      simp only [isBlankOrEnd, isBreakOrEnd, Bool.or_eq_false_iff] at hx
      exact hx.2.1
    have hnext : (decide (x = ':') && isBlankOrEnd ((word ++ cs).headD endMark)) = false := by
      cases word with
      | nil => simpa using hcolon.1
      | cons y word => simpa using hcolon.1
    have hindex : i + x.utf8Size + size word = i + size (x :: word) := by
      rw [size_cons, Nat.add_assoc]
    have hcolumn : c + 1 + word.length = c + (x :: word).length := by
      rw [List.length_cons]
      omega
    rw [List.cons_append, place_cons hbreak, plainWord, char₀_place, hx, hnext,
      ih hword hcolon.2, hindex, hcolumn]
    rfl

/-! ### Texts -/

/-- A text that goes on as a plain scalar from a word on. -/
structure IsPlain (cs : List Char) : Prop where
  shown : ∀ x ∈ cs, isShown x
  unbroken : ∀ x ∈ cs, isBreak x = false
  ne_nil : cs ≠ []
  head : ∀ x ∈ cs.head?, x ≠ ' ' ∧ x ≠ '#'
  last : cs.getLast? ≠ some ' '
  colon : hasPair (· = ':') isBlankOrEnd (cs ++ ['\n']) = false
  comment : hasPair isBlankOrEnd (· = '#') cs = false

/-- No colon stands in front of a blank when neither the start nor what is behind it has one. -/
theorem hasPair_colon (hstart : startsWithMark (x :: cs) = false)
    (hcolon : hasPair (· = ':') isBlankOrEnd cs = false) (hend : cs.getLast? ≠ some ':') :
  hasPair (· = ':') isBlankOrEnd (x :: cs ++ ['\n']) = false
  := by
  have hfirst : (decide (x = ':') && (cs ++ ['\n']).head?.any isBlankOrEnd) = false := by
    rw [Bool.and_eq_false_iff, decide_eq_false_iff_not]
    by_cases hx : x = ':'
    · subst hx
      right
      cases cs with
      | nil => cases hstart
      | cons y cs =>
        simp [startsWithMark] at hstart
        simpa using hstart
    · exact .inl hx
  have hlast : (cs.getLast?.any (· = ':') && isBlankOrEnd '\n') = false := by
    cases hcs : cs.getLast? with
    | none => rfl
    | some y =>
      have hy : y ≠ ':' := by
        rintro rfl
        exact hend hcs
      simp [hy]
  rw [List.cons_append, hasPair_cons, hfirst, hasPair_snoc, hcolon, hlast]
  rfl

/-- What is chosen to be printed plainly can be read as a plain scalar. -/
theorem isPlain_of_fitsPlain (h : fitsPlain cs) :
  IsPlain cs
  := by
  simp only [fitsPlain, Bool.and_eq_true, Bool.not_eq_true', List.all_eq_true, List.any_eq_false,
    decide_eq_true_eq, holdsMark, Bool.or_eq_false_iff, decide_eq_false_iff_not] at h
  obtain ⟨⟨⟨⟨⟨hstart, ⟨hcolon, hend⟩, hcomment⟩, hshown⟩, hbreak⟩, hhead⟩, hlast⟩ := h
  cases cs with
  | nil => cases hstart
  | cons x cs =>
    constructor
    case shown => exact hshown
    case unbroken => exact fun y hy => Bool.eq_false_iff.mpr (hbreak y hy)
    case ne_nil => exact List.cons_ne_nil _ _
    case head =>
      rintro y ⟨⟩
      constructor
      · rintro rfl
        exact hhead rfl
      · rintro rfl
        cases hstart
    case last => exact hlast
    case colon => exact hasPair_colon hstart hcolon hend
    case comment => exact hcomment

namespace IsPlain

/-- What is behind a gap in a text goes on as a plain scalar. -/
theorem behind {front rest : List Char} (h : IsPlain (front ++ rest)) (hne : rest ≠ [])
    (hrest : ∀ x ∈ rest.head?, x ≠ ' ') (hfront : front.getLast? = some ' ') :
  IsPlain rest where
  shown x hx := h.shown x (List.mem_append_right _ hx)
  unbroken x hx := h.unbroken x (List.mem_append_right _ hx)
  ne_nil := hne
  head := by
    intro x hx
    use hrest x hx
    rintro rfl
    obtain ⟨front, rfl⟩ := List.getLast?_eq_some_iff.mp hfront
    have hpair := h.comment
    rw [List.append_assoc] at hpair
    have hspace := hasPair_append hpair
    rw [List.singleton_append, hasPair_cons, Option.mem_def.mp hx] at hspace
    cases hspace
  last := by
    have hlast := h.last
    rwa [List.getLast?_append, Option.or_of_isSome (by simpa using hne)] at hlast
  colon := by
    have hcolon := h.colon
    rw [List.append_assoc] at hcolon
    exact hasPair_append hcolon
  comment := hasPair_append h.comment

/-- A plain text starts neither with a gap nor with a comment. -/
theorem headD {rest : List Char} (h : IsPlain cs) :
  isBlank ((cs ++ rest).headD endMark) = false ∧ isBreak ((cs ++ rest).headD endMark) = false
    ∧ (cs ++ rest).headD endMark ≠ '#'
  := by
  obtain ⟨x, ds, rfl⟩ := List.exists_cons_of_ne_nil h.ne_nil
  obtain ⟨hspace, hcomment⟩ := h.head x rfl
  have hblank : isBlank x = false := by
    rw [isBlank_eq (h.shown x List.mem_cons_self)]
    exact decide_eq_false hspace
  exact ⟨hblank, h.unbroken x List.mem_cons_self, hcomment⟩

/-- A plain scalar is a word, or a word with a gap behind it and a plain scalar. -/
theorem word_or_gap (h : IsPlain cs) :
  (∀ x ∈ cs, isBlankOrEnd x = false) ∨ ∃ word count more,
    cs = word ++ (spaces (count + 1) ++ more) ∧ word ≠ [] ∧ (∀ x ∈ word, isBlankOrEnd x = false)
      ∧ hasPair (· = ':') isBlankOrEnd (word ++ [' ']) = false ∧ IsPlain more
  := by
  have hnonblank : ∀ x ∈ cs, (decide (x = ' ')) = false → isBlankOrEnd x = false := by
    intro x hx hspace
    rw [isBlankOrEnd_eq (h.shown x hx), h.unbroken x hx, hspace]
    rfl
  obtain hwords | ⟨word, gap, more, rfl, hword, hgap, hspaces, hmore⟩ := exists_gap (· = ' ') cs
  · exact .inl fun x hx => hnonblank x hx (hwords x hx)
  right
  obtain ⟨count, rfl⟩ := exists_spaces hgap (by simpa using hspaces)
  have hlast : (word ++ spaces (count + 1)).getLast? = some ' ' := by
    rw [List.getLast?_append, spaces, List.getLast?_replicate]
    rfl
  refine ⟨word, count, more, rfl, ?_,
    fun x hx => hnonblank x (List.mem_append_left _ hx) (hword x hx), ?_, ?_⟩
  · rintro rfl
    exact (h.head ' ' rfl).1 rfl
  · have hcolon := h.colon
    have hfirst : spaces (count + 1) = [' '] ++ spaces count := rfl
    rw [hfirst, List.append_assoc [' '], ← List.append_assoc word, List.append_assoc] at hcolon
    exact hasPair_left hcolon
  · rw [← List.append_assoc] at h
    refine h.behind ?_ (by simpa using hmore) hlast
    rintro rfl
    rw [List.append_nil] at h
    exact h.last hlast

end IsPlain

/-- A mark between documents stands in the first column only. -/
theorem isDocumentMark_place (hc : c ≠ 0) :
  isDocumentMark (place i l c cs) = false
  := by simp [isDocumentMark, isMark, hc]

/-- A word is read with the gap behind it, and the scalar ends with it or goes on. -/
theorem plain_word {least : Int} {limit : Nat} {done pending word : List Char} {broken : Bool}
    {g : Gap} {gs rest rest' : List Glyph} (hmark : isDocumentMark gs = false)
    (hcomment : char₀ gs ≠ '#') (hword : plainWord false gs = some (word, rest)) (hne : word ≠ [])
    (hstop : isBlank (char₀ rest) || isBreak (char₀ rest))
    (hgap : gapAt least limit rest = some (g, rest')) :
  plain false least (limit + 1) done pending broken gs
    = if (first rest').column < least then
        some (done.reverse ++ (pending ++ word), rest', !g.breaks.isEmpty)
      else
        plain false least limit (word.reverse ++ (pending.reverse ++ done)) g.text
          (!g.breaks.isEmpty) rest'
  := by
  have hempty : word.isEmpty = false := by simpa using hne
  rw [plain, hmark, hword]
  simp only [hcomment, decide_false, Bool.or_false, Bool.false_eq_true, if_false,
    Option.bind_eq_bind, Option.bind_some, hempty, hstop, Bool.not_true, hgap, Bool.not_false,
    Bool.true_and, decide_eq_true_eq, List.nil_append]
  split
  · simp
  · rfl

/-- A plain scalar ends where the next line is indented by less. -/
theorem plain_place {least : Int} {limit indent : Nat} {done pending rest : List Char}
    {broken : Bool} (h : IsPlain cs) (hlimit : cs.length + indent + 2 ≤ limit) (hc : c ≠ 0)
    (hleast : least ≤ c) (hindent : indent < least)
    (hblank : isBlank (rest.headD endMark) = false)
    (hbreak : isBreak (rest.headD endMark) = false) :
  plain false least limit done pending broken (place i l c (cs ++ '\n' :: (spaces indent ++ rest)))
    = some (done.reverse ++ (pending ++ cs),
      place (i + size cs + 1 + indent) (l + 1) indent rest, true)
  := by
  -- A word is read with the gap behind it, and what is behind the gap is shorter.
  induction hlength : cs.length using Nat.strongRecOn generalizing cs i c limit done pending broken
    with
  | ind length ih =>
    obtain ⟨limit, rfl⟩ : ∃ n, limit = n + 1 := ⟨limit - 1, by omega⟩
    have hpos : 0 < cs.length := List.length_pos_iff.mpr h.ne_nil
    have hcomment : char₀ (place i l c (cs ++ '\n' :: (spaces indent ++ rest))) ≠ '#' := by
      rw [char₀_place]
      exact h.headD.2.2
    obtain hword | ⟨word, count, more, rfl, hne, hword, hcolon, hmore⟩ := h.word_or_gap
    · have hread : plainWord false (place i l c (cs ++ '\n' :: (spaces indent ++ rest)))
          = some (cs, place _ l _ ('\n' :: (spaces indent ++ rest))) :=
        plainWord_place hword h.colon fun _ _ => plainWord_blank rfl
      have hline : gapAt least limit
          (place (i + size cs) l (c + cs.length) (['\n'] ++ (spaces indent ++ rest))) = some _ :=
        gapAt_breaks (List.forall_mem_singleton.mpr (by decide)) (List.cons_ne_nil _ _)
          (by rw [List.length_singleton]; omega) hblank hbreak
      rw [plain_word (isDocumentMark_place hc) hcomment hread h.ne_nil
        (by rw [char₀_place]; rfl) hline, first_place, if_pos hindent]
      rfl
    · have hlengths : word.length + (count + 1 + more.length) = length := by
        simpa [spaces] using hlength
      have hwordLength : 0 < word.length := List.length_pos_iff.mpr hne
      simp only [List.append_assoc] at hcomment ⊢
      have hread : plainWord false (place i l c
            (word ++ (spaces (count + 1) ++ (more ++ '\n' :: (spaces indent ++ rest)))))
          = some (word, place _ l _ _) :=
        plainWord_place hword hcolon fun _ _ => plainWord_blank rfl
      have hspaces : gapAt least limit (place (i + size word) l (c + word.length)
          (spaces (count + 1) ++ (more ++ '\n' :: (spaces indent ++ rest)))) = some _ :=
        gapAt_spaces (by omega) hmore.headD.1 hmore.headD.2.1
      rw [plain_word (isDocumentMark_place hc) hcomment hread hne (by rw [char₀_place]; rfl)
        hspaces, first_place, if_neg (by dsimp only; omega),
        ih more.length (by omega) hmore (by omega) (by omega) (by omega) rfl]
      simp [Gap.text, Nat.add_assoc]

/-! ### Names -/

/-- Whether the character may be part of a name that is written plainly. -/
def isLetter (x : Char) : Bool := x.isAlpha || x = '_'

/-- A letter is none of the characters that are no letters. -/
theorem ne_of_isLetter (hx : isLetter x) {y : Char} (hy : isLetter y = false) :
  x ≠ y
  := by
  rintro rfl
  cases hx.symm.trans hy

/-- A letter ends no word. -/
theorem isBlankOrEnd_of_isLetter (hx : isLetter x) :
  isBlankOrEnd x = false
  := isBlankOrEnd_eq_false (by decide) hx

theorem toNat_of_isLetter (hx : isLetter x) :
  65 ≤ x.toNat ∧ x.toNat ≤ 122
  := by
  obtain halpha | rfl : x.isAlpha ∨ x = '_' := by simpa [isLetter] using hx
  · obtain hupper | hlower : x.isUpper ∨ x.isLower := Bool.or_eq_true_iff.mp halpha
    · obtain ⟨hlow, hhigh⟩ : 'A'.val ≤ x.val ∧ x.val ≤ 'Z'.val := of_decide_eq_true hupper
      rw [UInt32.le_iff_toNat_le] at hlow hhigh
      exact ⟨hlow, hhigh.trans (by decide)⟩
    · obtain ⟨hlow, hhigh⟩ := Bool.and_eq_true_iff.mp hlower
      rw [decide_eq_true_eq, ge_iff_le, UInt32.le_iff_toNat_le] at hlow
      rw [decide_eq_true_eq, UInt32.le_iff_toNat_le] at hhigh
      exact ⟨(by decide : 65 ≤ 'a'.val.toNat).trans hlow, hhigh⟩
  · decide

theorem isShown_of_isLetter (hx : isLetter x) :
  isShown x
  := by
  obtain ⟨hlow, hhigh⟩ := toNat_of_isLetter hx
  have hrange : 0x20 ≤ x.toNat ∧ x.toNat ≤ 0x7E := by omega
  simp [isShown, hrange]

theorem utf8Size_of_isLetter (hx : isLetter x) :
  x.utf8Size = 1
  := by
  have hle : x.val.toNat ≤ 127 := (toNat_of_isLetter hx).2.trans (by decide)
  exact Char.utf8Size_eq_one_iff.mpr (UInt32.le_iff_toNat_le.mpr hle)

/-- A mark between documents has no letters. -/
theorem isDocumentMark_of_isLetter (hx : isLetter x) :
  isDocumentMark (place i l c (x :: cs)) = false
  := by
  simp [isDocumentMark, isMark, ne_of_isLetter hx (rfl : isLetter '-' = false),
    ne_of_isLetter hx (rfl : isLetter '.' = false)]

/-- A name is read up to the colon behind it. -/
theorem plain_name {name rest : List Char} {y : Char} {least : Int} {limit : Nat}
    (hname : ∀ x ∈ name, isLetter x) (hne : name ≠ []) (hy : isBlankOrEnd y) :
  plain false least (limit + 1) [] [] false (place i l c (name ++ ':' :: y :: rest))
    = some (name, place (i + size name) l (c + name.length) (':' :: y :: rest), false)
  := by
  have hnone : ∀ x ∈ name, decide (x = ':') = false :=
    fun x hx => decide_eq_false (ne_of_isLetter (hname x hx) rfl)
  have hcolon : hasPair (· = ':') isBlankOrEnd (name ++ [':']) = false := by
    rw [hasPair_snoc, hasPair_eq_false hnone]
    simp [isBlankOrEnd, isBlank, isBreakOrEnd, isBreak, endMark]
  have hread : plainWord false (place i l c (name ++ ':' :: y :: rest))
      = some (name, place (i + size name) l (c + name.length) (':' :: y :: rest)) :=
    plainWord_place (fun x hx => isBlankOrEnd_of_isLetter (hname x hx)) hcolon
      fun _ _ => plainWord_colon hy
  obtain ⟨x, cs, rfl⟩ := List.exists_cons_of_ne_nil hne
  have hx := hname x List.mem_cons_self
  have hmark : isDocumentMark (place i l c (x :: cs ++ ':' :: y :: rest)) = false :=
    isDocumentMark_of_isLetter hx
  have hcomment : x ≠ '#' := ne_of_isLetter hx rfl
  rw [plain, hmark, hread]
  simp [hcomment, isBlank, isBreak]

end DetachedSchema.Yaml.Scalar
