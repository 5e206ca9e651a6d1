import DetachedSchema.Proofs.Yaml.Plain

/-!
# Reading quoted scalars

A text in single quotes is read word by word, a doubled quote being one; ends of lines in it stay as
they are.  In double quotes every character that is not shown is escaped.
-/

namespace DetachedSchema.Yaml.Scalar

open Glyph

variable {i l c : Nat} {x : Char} {cs : List Char}

/-! ### Blanks -/

theorem isBreak_of_isBlankOrEnd (hx : isBlankOrEnd x = false) :
  isBreak x = false
  := by
  simp only [isBlankOrEnd, isBreakOrEnd, Bool.or_eq_false_iff] at hx
  exact hx.2.1

theorem isBlank_of_isBlankOrEnd (hx : isBlankOrEnd x = false) :
  isBlank x = false
  := by
  simp only [isBlankOrEnd, Bool.or_eq_false_iff] at hx
  exact hx.1

/-- Separators of lines and of paragraphs are not folded. -/
theorem text_eq_breaks {blanks breaks : List Char} (hnil : breaks ≠ []) (hline : '\n' ∉ breaks) :
  (⟨blanks, breaks⟩ : Gap).text = breaks
  := by
  rw [Gap.text]
  split
  next heq => cases hnil heq
  next heq =>
    dsimp only at heq
    cases hline (heq ▸ List.mem_cons_self)
  next heq =>
    dsimp only at heq
    cases hline (heq ▸ List.mem_cons_self)
  next => rfl

/-! ### Words -/

/-- The notation of a character between quotes is read as the character. -/
def ReadsAs (quote : Char) (notation_ : Char → List Char) (x : Char) : Prop :=
  ∀ limit done i l c cs,
    quotedWord quote (limit + 1) done (place i l c (notation_ x ++ cs))
      = quotedWord quote limit (x :: done)
        (place (i + size (notation_ x)) l (c + (notation_ x).length) cs)

/-- The characters of a word are read one by one. -/
theorem quotedWord_flatMap {quote : Char} {notation_ : Char → List Char} {limit : Nat}
    {done word rest : List Char} (hword : ∀ x ∈ word, ReadsAs quote notation_ x)
    (hrest : ∀ limit done i c, quotedWord quote (limit + 1) done (place i l c rest)
      = some (done, place i l c rest, false)) (hlimit : word.length < limit) :
  quotedWord quote limit done (place i l c (word.flatMap notation_ ++ rest))
    = some (word.reverse ++ done, place (i + size (word.flatMap notation_)) l
      (c + (word.flatMap notation_).length) rest, false)
  := by
  obtain ⟨limit, rfl⟩ : ∃ n, limit = n + 1 := ⟨limit - 1, by omega⟩
  induction word generalizing limit done i c with
  | nil => exact hrest limit done i c
  | cons x word ih =>
    obtain ⟨hx, hword⟩ := List.forall_mem_cons.mp hword
    rw [List.length_cons] at hlimit
    obtain ⟨limit, rfl⟩ : ∃ n, limit = n + 1 := ⟨limit - 1, by omega⟩
    rw [List.flatMap_cons, List.append_assoc, hx, ih hword _ (by omega)]
    simp [Nat.add_assoc]

/-- A word ends in front of a blank, of the end of a line and of the end of the text. -/
theorem quotedWord_blank {quote : Char} {limit : Nat} {done : List Char}
    (h : isBlankOrEnd (cs.headD endMark)) :
  quotedWord quote (limit + 1) done (place i l c cs) = some (done, place i l c cs, false)
  := by
  rw [quotedWord]
  simp only [char₀_place, h, if_true]

/-- A word ends at the closing quote, which is not doubled. -/
theorem quotedWord_quote {quote : Char} {limit : Nat} {done : List Char}
    (hquote : isBlankOrEnd quote = false) (hnext : cs.headD endMark ≠ quote) :
  quotedWord quote (limit + 1) done (place i l c (quote :: cs))
    = some (done, place i l c (quote :: cs), false)
  := by
  have hne : ¬ (quote = '\'' ∧ quote = '\'' ∧ cs.headD endMark = '\'') := by
    rintro ⟨rfl, -, heq⟩
    exact hnext heq
  rw [quotedWord]
  simp only [char₀_place, charAt_place, List.headD_cons, List.drop_succ_cons, List.drop_zero,
    hquote, Bool.false_eq_true, if_false, hne, if_true]

/-- A word is no longer than its notation. -/
theorem length_le_flatMap {notation_ : Char → List Char} (h : ∀ x, notation_ x ≠ [])
    (word : List Char) :
  word.length ≤ (word.flatMap notation_).length
  := by
  induction word with
  | nil => exact Nat.le_refl 0
  | cons x word ih =>
    have hx : 0 < (notation_ x).length := List.length_pos_iff.mpr (h x)
    rw [List.flatMap_cons, List.length_append, List.length_cons]
    omega

/-! ### Steps -/

section

variable {quote : Char} {limit : Nat} {done done' : List Char} {gs rest rest' : List Glyph}
  {g : Gap}

/-- A text is over when a word is followed by the closing quote. -/
theorem quoted_end (hmark : isDocumentMark gs = false) (hend : char₀ gs ≠ endMark)
    (hword : quotedWord quote limit done gs = some (done', rest, false))
    (hquote : char₀ rest = quote) :
  quoted quote (limit + 1) done gs = some (done'.reverse, rest.drop 1)
  := by
  rw [quoted, hmark]
  simp only [hend, decide_false, Bool.or_false, Bool.false_eq_true, if_false, hword, hquote,
    Option.bind_eq_bind, Option.bind_some, Bool.not_false, Bool.true_and, decide_true, if_true,
    Option.pure_def]

/-- A text goes on behind a word and the gap after it. -/
theorem quoted_gap (hmark : isDocumentMark gs = false) (hend : char₀ gs ≠ endMark)
    (hword : quotedWord quote limit done gs = some (done', rest, false))
    (hquote : char₀ rest ≠ quote) (hgap : gapAt 0 limit rest = some (g, rest')) :
  quoted quote (limit + 1) done gs = quoted quote limit (g.text.reverse ++ done') rest'
  := by
  rw [quoted, hmark]
  simp only [hend, decide_false, Bool.or_false, Bool.false_eq_true, if_false, hword, hquote,
    Option.bind_eq_bind, Option.bind_some, Bool.and_false, hgap]

end

section

variable (i l limit : Nat) (done : List Char) {quote : Char} {notation_ : Char → List Char}
  {word rest : List Char} (hquote : isBlankOrEnd quote = false)
  (hword : ∀ x ∈ word, ReadsAs quote notation_ x) (hc : c ≠ 0)

include hquote hword hc

/-- The last word of a text, with the closing quote behind it. -/
theorem quoted_word_end
    (hend : (word.flatMap notation_ ++ quote :: rest).headD endMark ≠ endMark)
    (hrest : rest.headD endMark ≠ quote) (hlimit : word.length < limit) :
  ∃ i' c', quoted quote (limit + 1) done (place i l c (word.flatMap notation_ ++ quote :: rest))
    = some (done.reverse ++ word, place i' l c' rest)
  := by
  have hread : quotedWord quote limit done (place i l c (word.flatMap notation_ ++ quote :: rest))
      = some (word.reverse ++ done, place _ l _ (quote :: rest), false) :=
    quotedWord_flatMap hword (fun _ _ _ _ => quotedWord_quote hquote hrest) hlimit
  rw [quoted_end (isDocumentMark_place hc) (by rwa [char₀_place]) hread (by rw [char₀_place]; rfl),
    drop_place (isBreak_of_isBlankOrEnd hquote), List.reverse_append, List.reverse_reverse]
  exact ⟨_, _, rfl⟩

/-- A word with spaces behind it. -/
theorem quoted_word_spaces {count : Nat}
    (hend : (word.flatMap notation_ ++ (spaces (count + 1) ++ rest)).headD endMark ≠ endMark)
    (hrest : isBlankOrEnd (rest.headD endMark) = false)
    (hlimit : word.length + (count + 1) < limit) :
  ∃ i' c', c' ≠ 0 ∧ quoted quote (limit + 1) done
      (place i l c (word.flatMap notation_ ++ (spaces (count + 1) ++ rest)))
    = quoted quote limit (spaces (count + 1) ++ (word.reverse ++ done)) (place i' l c' rest)
  := by
  have hread : quotedWord quote limit done
        (place i l c (word.flatMap notation_ ++ (spaces (count + 1) ++ rest)))
      = some (word.reverse ++ done, place _ l _ (spaces (count + 1) ++ rest), false) :=
    quotedWord_flatMap hword (fun _ _ _ _ => quotedWord_blank rfl) (by omega)
  have hgap : ∀ i c, gapAt 0 limit (place i l c (spaces (count + 1) ++ rest))
      = some (⟨spaces (count + 1), []⟩, place (i + (count + 1)) l (c + (count + 1)) rest) :=
    fun _ _ => gapAt_spaces (by omega) (isBlank_of_isBlankOrEnd hrest)
      (isBreak_of_isBlankOrEnd hrest)
  have hspace : ' ' ≠ quote := by
    rintro rfl
    cases hquote
  have htext : (Gap.text ⟨spaces (count + 1), []⟩).reverse = spaces (count + 1) :=
    List.reverse_replicate
  rw [quoted_gap (isDocumentMark_place hc) (by rwa [char₀_place]) hread
    (by rw [char₀_place]; exact hspace) (hgap _ _), htext]
  exact ⟨_, _, by omega, rfl⟩

/-- A word with ends of lines behind it. -/
theorem quoted_word_breaks {breaks : List Char} {indent : Nat}
    (hend : (word.flatMap notation_ ++ (breaks ++ (spaces indent ++ rest))).headD endMark ≠ endMark)
    (hbreaks : ∀ x ∈ breaks, isShown x ∧ isBreak x) (hnil : breaks ≠ []) (hline : '\n' ∉ breaks)
    (hrest : isBlankOrEnd (rest.headD endMark) = false)
    (hlimit : word.length + breaks.length + indent < limit) :
  ∃ i', quoted quote (limit + 1) done
      (place i l c (word.flatMap notation_ ++ (breaks ++ (spaces indent ++ rest))))
    = quoted quote limit (breaks.reverse ++ (word.reverse ++ done))
      (place i' (l + breaks.length) indent rest)
  := by
  have hfirst : isBreak ((breaks ++ (spaces indent ++ rest)).headD endMark) := by
    obtain ⟨x, breaks, rfl⟩ := List.exists_cons_of_ne_nil hnil
    exact (hbreaks x List.mem_cons_self).2
  have hblank : isBlankOrEnd ((breaks ++ (spaces indent ++ rest)).headD endMark) := by
    simp only [isBlankOrEnd, isBreakOrEnd, hfirst, Bool.true_or, Bool.or_true]
  have hnext : (breaks ++ (spaces indent ++ rest)).headD endMark ≠ quote := by
    rintro heq
    rw [heq, hquote] at hblank
    cases hblank
  have hread : quotedWord quote limit done
        (place i l c (word.flatMap notation_ ++ (breaks ++ (spaces indent ++ rest))))
      = some (word.reverse ++ done, place _ l _ (breaks ++ (spaces indent ++ rest)), false) :=
    quotedWord_flatMap hword (fun _ _ _ _ => quotedWord_blank hblank) (by omega)
  have hgap : ∀ i c, gapAt 0 limit (place i l c (breaks ++ (spaces indent ++ rest)))
      = some (⟨[], breaks⟩, place (i + size breaks + indent) (l + breaks.length) indent rest) :=
    fun _ _ => gapAt_breaks hbreaks hnil (by omega) (isBlank_of_isBlankOrEnd hrest)
      (isBreak_of_isBlankOrEnd hrest)
  rw [quoted_gap (isDocumentMark_place hc) (by rwa [char₀_place]) hread
    (by rw [char₀_place]; exact hnext) (hgap _ _), text_eq_breaks hnil hline]
  exact ⟨_, rfl⟩

end

/-! ### Single quotes -/

/-- A character between single quotes. -/
def singleQuotedChar (x : Char) : List Char := if x = '\'' then ['\'', '\''] else [x]

theorem singleQuotedChar_ne_nil (x : Char) :
  singleQuotedChar x ≠ []
  := by
  rw [singleQuotedChar]
  split
  · exact List.cons_ne_nil _ _
  · exact List.cons_ne_nil _ _

/-- Within a line a text is written character by character. -/
theorem singleQuoted_word {indent : Nat} {word : List Char}
    (hword : ∀ x ∈ word, isBreak x = false) :
  singleQuoted indent false (word ++ cs)
    = word.flatMap singleQuotedChar ++ singleQuoted indent false cs
  := by
  induction word with
  | nil => rfl
  | cons x word ih =>
    obtain ⟨hx, hword⟩ := List.forall_mem_cons.mp hword
    rw [List.cons_append, singleQuoted, hx]
    simp [ih hword, singleQuotedChar]

/-- Ends of lines stand as they are, and what is behind them is indented. -/
theorem singleQuoted_breaks {indent : Nat} {broken : Bool} {bs : List Char}
    (hbs : ∀ x ∈ bs, isBreak x) (hnil : bs ≠ []) :
  singleQuoted indent broken (bs ++ cs) = bs ++ singleQuoted indent true cs
  := by
  induction bs generalizing broken with
  | nil => cases hnil rfl
  | cons x bs ih =>
    obtain ⟨hx, hbs⟩ := List.forall_mem_cons.mp hbs
    rw [List.cons_append, singleQuoted, if_pos hx]
    by_cases hnil : bs = []
    · subst hnil
      rfl
    · rw [ih hbs hnil]
      rfl

/-- The line after an end of line is indented. -/
theorem singleQuoted_broken {indent : Nat} (h : ∀ x ∈ cs.head?, isBreak x = false) :
  singleQuoted indent true cs = spaces indent ++ singleQuoted indent false cs
  := by
  cases cs with
  | nil => simp [singleQuoted]
  | cons x cs =>
    have hx := h x rfl
    simp [singleQuoted, hx]

/-- A character of a word is read from its notation between single quotes, a quote from a doubled
one. -/
theorem readsAs_singleQuotedChar (hx : isBlankOrEnd x = false) :
  ReadsAs '\'' singleQuotedChar x
  := by
  intro limit done i l c cs
  have hbreak : isBreak x = false := by
    simp only [isBlankOrEnd, isBreakOrEnd, Bool.or_eq_false_iff] at hx
    exact hx.2.1
  rw [singleQuotedChar]
  split
  next hquote =>
    subst hquote
    have htwice : (place i l c ('\'' :: '\'' :: cs)).drop 2
        = place (i + '\''.utf8Size + '\''.utf8Size) l (c + 1 + 1) cs := by
      rw [place_cons hbreak, List.drop_succ_cons, drop_place hbreak]
    rw [List.cons_append, List.cons_append, List.nil_append, quotedWord, htwice]
    simp only [char₀_place, charAt_place, List.headD_cons, List.drop_succ_cons, List.drop_zero, hx,
      Bool.false_eq_true, if_false, true_and, if_true]
    rfl
  next hquote =>
    rw [List.cons_append, List.nil_append, quotedWord, drop_place hbreak]
    simp only [char₀_place, List.headD_cons, hx, Bool.false_eq_true, if_false, hquote, false_and,
      and_false, Char.reduceEq]
    rfl

/-- A text in single quotes starts with its own first character, or with the closing quote. -/
theorem headD_singleQuoted (indent : Nat) (rest : List Char) :
  (singleQuoted indent false cs ++ '\'' :: rest).headD endMark = cs.headD '\''
  := by
  cases cs with
  | nil => rfl
  | cons x cs =>
    rw [singleQuoted, if_neg Bool.false_ne_true, List.nil_append]
    split
    next => rfl
    next =>
      split
      next hquote =>
        rw [hquote]
        rfl
      next => rfl

/-- Where no space stands next to an end of line, a gap is made of spaces or of ends of lines. -/
theorem gap_uniform {gap : List Char} (hgap : ∀ x ∈ gap, x = ' ' ∨ isBreak x)
    (hbefore : hasPair (· = ' ') isBreak gap = false)
    (hafter : hasPair isBreak (· = ' ') gap = false) :
  (∀ x ∈ gap, x = ' ') ∨ ∀ x ∈ gap, isBreak x
  := by
  induction gap with
  | nil => exact .inl (List.forall_mem_nil _)
  | cons x gap ih =>
    obtain ⟨hx, hgap⟩ := List.forall_mem_cons.mp hgap
    rw [hasPair_cons, Bool.or_eq_false_iff] at hbefore hafter
    cases gap with
    | nil => simpa using hx
    | cons y gap =>
      simp only [List.head?_cons, Option.any_some, Bool.and_eq_false_iff,
        decide_eq_false_iff_not] at hbefore hafter
      obtain hspaces | hbreaks := ih hgap hbefore.2 hafter.2
      · left
        have hy := hspaces y List.mem_cons_self
        obtain rfl | hbreak := hx
        · exact List.forall_mem_cons.mpr ⟨rfl, hspaces⟩
        · simp [hy, hbreak] at hafter
      · right
        have hy := hbreaks y List.mem_cons_self
        obtain rfl | hbreak := hx
        · simp [hy] at hbefore
        · exact List.forall_mem_cons.mpr ⟨hbreak, hbreaks⟩

/-- A text that can be written in single quotes. -/
structure IsQuotable (cs : List Char) : Prop where
  shown : ∀ x ∈ cs, isShown x
  before : hasPair (· = ' ') isBreak cs = false
  after : hasPair isBreak (· = ' ') cs = false
  line : '\n' ∉ cs

namespace IsQuotable

/-- What is behind a gap can be quoted like the whole. -/
theorem behind {front rest : List Char} (h : IsQuotable (front ++ rest)) :
  IsQuotable rest where
  shown x hx := h.shown x (List.mem_append_right _ hx)
  before := hasPair_append h.before
  after := hasPair_append h.after
  line hline := h.line (List.mem_append_right _ hline)

/-- A text that can be quoted is a word, or a word with spaces or ends of lines behind it and
another such text. -/
theorem word_or_gap (h : IsQuotable cs) :
  (∀ x ∈ cs, isBlankOrEnd x = false) ∨ ∃ word gap more, cs = word ++ (gap ++ more)
    ∧ (∀ x ∈ word, isBlankOrEnd x = false) ∧ gap ≠ []
    ∧ ((∀ x ∈ gap, x = ' ') ∨ ∀ x ∈ gap, isBreak x)
    ∧ ∀ x ∈ more.head?, isBlankOrEnd x = false
  := by
  obtain hword | ⟨word, gap, more, rfl, hword, hgap, hblank, hmore⟩ := exists_gap isBlankOrEnd cs
  · exact .inl hword
  right
  refine ⟨word, gap, more, rfl, hword, hgap, gap_uniform ?_ (hasPair_left h.behind.before)
    (hasPair_left h.behind.after), hmore⟩
  intro x hx
  have hx' := hblank x hx
  rw [isBlankOrEnd_eq (h.behind.shown x (List.mem_append_left _ hx)), Bool.or_eq_true,
    decide_eq_true_eq] at hx'
  exact hx'

end IsQuotable

/-- Spaces within a line stand as they are. -/
theorem singleQuoted_spaces (indent count : Nat) :
  singleQuoted indent false (spaces count ++ cs) = spaces count ++ singleQuoted indent false cs
  := by
  rw [singleQuoted_word, flatMap_spaces rfl]
  intro x hx
  rw [List.eq_of_mem_replicate hx]
  rfl

/-! ### Texts in single quotes -/

/-- The text is read between single quotes that stand in front of the rest. -/
def ReadsQuoted (indent : Nat) (rest cs : List Char) : Prop :=
  ∀ (i l : Nat) (done : List Char) ⦃c limit : Nat⦄, c ≠ 0 →
    (singleQuoted indent false cs).length + 2 ≤ limit →
    ∃ i' l' c', l ≤ l' ∧
      quoted '\'' limit done (place i l c (singleQuoted indent false cs ++ '\'' :: rest))
        = some (done.reverse ++ cs, place i' l' c' rest)

section

variable {indent : Nat} {rest word gap more : List Char}

theorem headD_singleQuoted_ne (h : ∀ x ∈ cs, isShown x) :
  (singleQuoted indent false cs ++ '\'' :: rest).headD endMark ≠ endMark
  := by
  rw [headD_singleQuoted]
  cases cs with
  | nil => decide
  | cons x cs => exact (ne_of_isShown (h x List.mem_cons_self)).1

/-- Behind a gap a text in single quotes goes on with a word or ends. -/
theorem isBlankOrEnd_singleQuoted (h : ∀ x ∈ cs.head?, isBlankOrEnd x = false) :
  isBlankOrEnd ((singleQuoted indent false cs ++ '\'' :: rest).headD endMark) = false
  := by
  rw [headD_singleQuoted]
  cases cs with
  | nil => exact (by decide : isBlankOrEnd '\'' = false)
  | cons x cs => exact h x rfl

/-- The text is a word. -/
theorem readsQuoted_word (h : IsQuotable word) (hword : ∀ x ∈ word, isBlankOrEnd x = false)
    (hrest : rest.headD endMark ≠ '\'') :
  ReadsQuoted indent rest word
  := by
  intro i l done c limit hc hlimit
  obtain ⟨limit, rfl⟩ : ∃ n, limit = n + 1 := ⟨limit - 1, by omega⟩
  have hend : (singleQuoted indent false word ++ '\'' :: rest).headD endMark ≠ endMark :=
    headD_singleQuoted_ne h.shown
  have hwritten : singleQuoted indent false word = word.flatMap singleQuotedChar := by
    have happend : singleQuoted indent false (word ++ []) = _ :=
      singleQuoted_word fun x hx => isBreak_of_isBlankOrEnd (hword x hx)
    simpa [singleQuoted] using happend
  have hlength := length_le_flatMap singleQuotedChar_ne_nil word
  rw [hwritten] at hend hlimit ⊢
  obtain ⟨i', c', heq⟩ := quoted_word_end i l limit done (by decide)
    (fun x hx => readsAs_singleQuotedChar (hword x hx)) hc hend hrest (by omega)
  exact ⟨i', l, c', Nat.le_refl l, heq⟩

variable (hword : ∀ x ∈ word, isBlankOrEnd x = false)
  (hmore : ∀ x ∈ more.head?, isBlankOrEnd x = false) (hreads : ReadsQuoted indent rest more)

include hword hmore hreads

/-- A word with spaces behind it, and a further text. -/
theorem readsQuoted_spaces {count : Nat} (h : IsQuotable (word ++ (spaces (count + 1) ++ more))) :
  ReadsQuoted indent rest (word ++ (spaces (count + 1) ++ more))
  := by
  intro i l done c limit hc hlimit
  obtain ⟨limit, rfl⟩ : ∃ n, limit = n + 1 := ⟨limit - 1, by omega⟩
  have hend : (singleQuoted indent false (word ++ (spaces (count + 1) ++ more))
      ++ '\'' :: rest).headD endMark ≠ endMark := headD_singleQuoted_ne h.shown
  have hlength := length_le_flatMap singleQuotedChar_ne_nil word
  rw [singleQuoted_word fun x hx => isBreak_of_isBlankOrEnd (hword x hx),
    singleQuoted_spaces] at hend hlimit ⊢
  rw [List.length_append, List.length_append, length_spaces] at hlimit
  rw [List.append_assoc, List.append_assoc] at hend ⊢
  obtain ⟨i₁, c₁, hc₁, hspaces⟩ := quoted_word_spaces i l limit done (by decide)
    (fun x hx => readsAs_singleQuotedChar (hword x hx)) hc hend (isBlankOrEnd_singleQuoted hmore)
    (by omega)
  have hrest : (singleQuoted indent false more).length + 2 ≤ limit := by omega
  obtain ⟨i', l', c', hl, heq⟩ :=
    hreads i₁ l (spaces (count + 1) ++ (word.reverse ++ done)) hc₁ hrest
  refine ⟨i', l', c', hl, ?_⟩
  rw [hspaces, heq]
  simp [spaces]

/-- A word with ends of lines behind it, and a further text on a line that is indented. -/
theorem readsQuoted_breaks (h : IsQuotable (word ++ (gap ++ more))) (hgap : gap ≠ [])
    (hbreaks : ∀ x ∈ gap, isBreak x) (hindent : indent ≠ 0) :
  ReadsQuoted indent rest (word ++ (gap ++ more))
  := by
  intro i l done c limit hc hlimit
  obtain ⟨limit, rfl⟩ : ∃ n, limit = n + 1 := ⟨limit - 1, by omega⟩
  have hend : (singleQuoted indent false (word ++ (gap ++ more)) ++ '\'' :: rest).headD endMark
      ≠ endMark := headD_singleQuoted_ne h.shown
  have hshown : ∀ x ∈ gap, isShown x ∧ isBreak x := fun x hx =>
    ⟨h.behind.shown x (List.mem_append_left _ hx), hbreaks x hx⟩
  have hline : '\n' ∉ gap := fun hline => h.behind.line (List.mem_append_left _ hline)
  have hlength := length_le_flatMap singleQuotedChar_ne_nil word
  rw [singleQuoted_word fun x hx => isBreak_of_isBlankOrEnd (hword x hx),
    singleQuoted_breaks hbreaks hgap,
    singleQuoted_broken fun x hx => isBreak_of_isBlankOrEnd (hmore x hx)] at hend hlimit ⊢
  rw [List.length_append, List.length_append, List.length_append, length_spaces] at hlimit
  rw [List.append_assoc, List.append_assoc, List.append_assoc] at hend ⊢
  obtain ⟨i₁, hbroken⟩ := quoted_word_breaks i l limit done (by decide)
    (fun x hx => readsAs_singleQuotedChar (hword x hx)) hc hend hshown hgap hline
    (isBlankOrEnd_singleQuoted hmore) (by omega)
  have hgapLength : 0 < gap.length := List.length_pos_iff.mpr hgap
  have hrest : (singleQuoted indent false more).length + 2 ≤ limit := by omega
  obtain ⟨i', l', c', hl, heq⟩ :=
    hreads i₁ (l + gap.length) (gap.reverse ++ (word.reverse ++ done)) hindent hrest
  refine ⟨i', l', c', by omega, ?_⟩
  rw [hbroken, heq]
  simp

end

/-- A text that can be quoted is read from between single quotes. -/
theorem quoted_singleQuoted {indent : Nat} {rest : List Char} (h : IsQuotable cs)
    (hindent : indent ≠ 0) (hrest : rest.headD endMark ≠ '\'') :
  ReadsQuoted indent rest cs
  := by
  -- The induction is on the length: a whole word and a whole gap are read at a time.
  induction hlength : cs.length using Nat.strongRecOn generalizing cs with
  | ind length ih =>
    obtain hword | ⟨word, gap, more, rfl, hword, hgap, huniform, hmore⟩ := h.word_or_gap
    · exact readsQuoted_word h hword hrest
    · have hgapLength : 0 < gap.length := List.length_pos_iff.mpr hgap
      rw [List.length_append, List.length_append] at hlength
      have hreads : ReadsQuoted indent rest more :=
        ih more.length (by omega) h.behind.behind rfl
      obtain hspaces | hbreaks := huniform
      · obtain ⟨count, rfl⟩ := exists_spaces hgap hspaces
        exact readsQuoted_spaces hword hmore hreads h
      · exact readsQuoted_breaks hword hmore hreads h hgap hbreaks hindent

end DetachedSchema.Yaml.Scalar
