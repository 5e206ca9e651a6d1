import DetachedSchema.Proofs.Yaml.Escape

/-!
# Reading blocks

A text of several lines is written as a block: every line is indented, and the first line that is
indented by less belongs to something else.  What is said in front of a block tells how far it is
indented, when its first line does not show it, and how many ends of lines are left at its end.
-/

namespace DetachedSchema.Yaml.Scalar

open Glyph

variable {i l c : Nat} {x : Char} {cs : List Char}

/-! ### Indentation -/

/-- Spaces that are passed over one by one. -/
theorem dropWhile_spaces {p : Glyph → Bool} {count : Nat}
    (hspaces : ∀ i' c', c' < c + count → p ⟨' ', i', l, c'⟩)
    (hstop : p ⟨cs.headD endMark, i + count, l, c + count⟩ = false) :
  (place i l c (spaces count ++ cs)).dropWhile p = place (i + count) l (c + count) cs
  := by
  induction count generalizing i c with
  | zero =>
    obtain ⟨gs, hgs⟩ := exists_place i l c cs
    have hnone : spaces 0 ++ cs = cs := rfl
    rw [hnone, hgs, List.dropWhile_cons_of_neg (by simpa using hstop), ← hgs]
    rfl
  | succ count ih =>
    have hsucc : spaces (count + 1) ++ cs = ' ' :: (spaces count ++ cs) := rfl
    have hsize : ' '.utf8Size = 1 := rfl
    have hcolumn : c + 1 + count = c + (count + 1) := by omega
    have hindex : i + 1 + count = i + (count + 1) := by omega
    rw [hsucc, place_cons isBreak_space, hsize,
      List.dropWhile_cons_of_pos (hspaces i c (by omega)), ih, hcolumn, hindex]
    · intro i' c' hc'
      exact hspaces i' c' (by omega)
    · rwa [hcolumn, hindex]

section

variable {indent limit deepest : Nat} {breaks : List Char}

/-- The line is indented as far as the block or by less. -/
theorem blockBreaks_stop {count : Nat} (hindent : indent ≠ 0) (hcount : count ≤ indent)
    (hbreak : isBreak (cs.headD endMark) = false)
    (hstop : count = indent ∨ isBlank (cs.headD endMark) = false) :
  blockBreaks indent (limit + 1) deepest breaks (place i l 0 (spaces count ++ cs))
    = some (max deepest count, breaks.reverse, place (i + count) l count cs)
  := by
  have hspaces : (place i l 0 (spaces count ++ cs)).dropWhile
        (fun g => g.char = ' ' && (indent = 0 || g.column < indent))
      = place (i + count) l (0 + count) cs := by
    apply dropWhile_spaces
    · intro i' c' hc'
      simp only [decide_true, Bool.true_and, Bool.or_eq_true, decide_eq_true_eq]
      omega
    · obtain rfl | hblank := hstop
      · simp [hindent]
      · simp only [isBlank, Bool.or_eq_false_iff] at hblank
        simp only [hblank.1, Bool.false_and]
  have htab : ((indent = 0 || count < indent) && cs.headD endMark = '\t') = false := by
    obtain rfl | hblank := hstop
    · simp [hindent]
    · simp only [isBlank, Bool.or_eq_false_iff] at hblank
      simp only [hblank.2, Bool.and_false]
  rw [blockBreaks, hspaces, Nat.zero_add]
  simp only [first_place, htab, Bool.false_eq_true, if_false, lineEnd?_place_of_not hbreak]

/-- A line without anything on it. -/
theorem blockBreaks_cons {x : Char} (hshown : isShown x) (hx : isBreak x) :
  blockBreaks indent (limit + 1) deepest breaks (place i l 0 (x :: cs))
    = blockBreaks indent limit (max deepest 0) (x :: breaks) (place (i + x.utf8Size) (l + 1) 0 cs)
  := by
  have hspace : x ≠ ' ' := by
    rintro rfl
    cases hx
  have htab : x ≠ '\t' := by
    rintro rfl
    cases hx
  have hdrop : (place i l 0 (x :: cs)).dropWhile
        (fun g => g.char = ' ' && (indent = 0 || g.column < indent)) = place i l 0 (x :: cs) := by
    obtain ⟨gs, hgs⟩ := exists_place i l 0 (x :: cs)
    rw [hgs, List.dropWhile_cons_of_neg (by simp [hspace])]
  rw [blockBreaks, hdrop]
  simp only [first_place, List.headD_cons, htab, decide_false, Bool.and_false,
    Bool.false_eq_true, if_false, lineEnd?_place hshown hx]

/-- Ends of lines in front of a line that is indented as far as the block or by less. -/
theorem blockBreaks_place {count : Nat} {bs : List Char} (hbs : ∀ x ∈ bs, isShown x ∧ isBreak x)
    (hindent : indent ≠ 0) (hcount : count ≤ indent)
    (hbreak : isBreak (cs.headD endMark) = false)
    (hstop : count = indent ∨ isBlank (cs.headD endMark) = false) (hlimit : bs.length < limit) :
  ∃ i' deepest', blockBreaks indent limit deepest breaks (place i l 0 (bs ++ (spaces count ++ cs)))
    = some (deepest', breaks.reverse ++ bs, place (i' + count) (l + bs.length) count cs)
  := by
  obtain ⟨limit, rfl⟩ : ∃ n, limit = n + 1 := ⟨limit - 1, by omega⟩
  induction bs generalizing i l limit deepest breaks with
  | nil =>
    rw [List.nil_append, blockBreaks_stop hindent hcount hbreak hstop, List.append_nil]
    exact ⟨i, max deepest count, rfl⟩
  | cons x bs ih =>
    obtain ⟨⟨hshown, hx⟩, hbs⟩ := List.forall_mem_cons.mp hbs
    rw [List.length_cons] at hlimit
    obtain ⟨limit, rfl⟩ : ∃ n, limit = n + 1 := ⟨limit - 1, by omega⟩
    obtain ⟨i', deepest', heq⟩ : ∃ i' deepest', blockBreaks indent (limit + 1) (max deepest 0)
          (x :: breaks) (place (i + x.utf8Size) (l + 1) 0 (bs ++ (spaces count ++ cs)))
        = some (deepest', (x :: breaks).reverse ++ bs,
          place (i' + count) (l + 1 + bs.length) count cs) := ih hbs limit (by omega)
    refine ⟨i', deepest', ?_⟩
    rw [List.cons_append, blockBreaks_cons hshown hx, heq, List.reverse_cons, List.append_assoc,
      List.length_cons, Nat.add_assoc, Nat.add_comm 1]
    rfl

/-- With no indentation given, it is that of the first line. -/
theorem blockBreaks_first {count : Nat} (hblank : isBlank (cs.headD endMark) = false)
    (hbreak : isBreak (cs.headD endMark) = false) :
  blockBreaks 0 (limit + 1) 0 [] (place i l 0 (spaces count ++ cs))
    = some (count, [], place (i + count) l count cs)
  := by
  simp only [isBlank, Bool.or_eq_false_iff] at hblank
  have hspaces : (place i l 0 (spaces count ++ cs)).dropWhile
        (fun g => g.char = ' ' && (0 = 0 || g.column < 0))
      = place (i + count) l (0 + count) cs := by
    apply dropWhile_spaces
    · intro i' c' hc'
      rfl
    · simp only [hblank.1, Bool.false_and]
  rw [blockBreaks, hspaces, Nat.zero_add]
  simp only [first_place, hblank.2, Bool.and_false, Bool.false_eq_true, if_false,
    lineEnd?_place_of_not hbreak, Nat.zero_max, List.reverse_nil]

end

/-! ### Lines -/

/-- A line and what follows it. -/
theorem line_place {word : List Char} (hword : ∀ x ∈ word, isBreakOrEnd x = false)
    (hstop : isBreakOrEnd (cs.headD endMark)) :
  chars ((place i l c (word ++ cs)).takeWhile (!isBreakOrEnd ·.char)) = word
  ∧ dropLine (place i l c (word ++ cs)) = place (i + size word) l (c + word.length) cs
  := by
  have hbreak : ∀ x ∈ word, isBreak x = false := by
    intro x hx
    have hx := hword x hx
    simp only [isBreakOrEnd, Bool.or_eq_false_iff] at hx
    exact hx.1
  obtain ⟨gs, hgs, hchars⟩ : ∃ gs, place i l c (word ++ cs)
      = gs ++ place (i + size word) l (c + word.length) cs ∧ chars gs = word :=
    place_append hbreak
  obtain ⟨rest, hrest⟩ := exists_place (i + size word) l (c + word.length) cs
  have hline : ∀ g ∈ gs, (!isBreakOrEnd g.char) = true := by
    intro g hg
    have hmem : g.char ∈ word := hchars ▸ List.mem_map_of_mem hg
    rw [hword _ hmem]
    rfl
  rw [hgs, dropLine, List.takeWhile_append_of_pos hline, List.dropWhile_append_of_pos hline, hrest]
  constructor
  · rw [List.takeWhile_cons_of_neg (by simpa using hstop), List.append_nil, hchars]
  · rw [List.dropWhile_cons_of_neg (by simpa using hstop)]

section

variable {indent limit count : Nat} {done ended breaks rest : List Char} {wasBlank : Bool}

/-- A line with the ends of lines behind it. -/
theorem blockLines_line {word bs : List Char} {b : Char} (hne : word ≠ [])
    (hword : ∀ x ∈ word, isBreakOrEnd x = false) (hbs : ∀ x ∈ b :: bs, isShown x ∧ isBreak x)
    (hindent : indent ≠ 0) (hcount : count ≤ indent)
    (hbreak : isBreak (rest.headD endMark) = false)
    (hstop : count = indent ∨ isBlank (rest.headD endMark) = false) (hlimit : bs.length < limit) :
  ∃ i' wasBlank', blockLines false indent (limit + 1) done ended breaks wasBlank
      (place i l indent (word ++ (b :: bs ++ (spaces count ++ rest))))
    = blockLines false indent limit (word.reverse ++ (breaks.reverse ++ (ended.reverse ++ done)))
      [b] bs wasBlank' (place (i' + count) (l + 1 + bs.length) count rest)
  := by
  obtain ⟨hb, hbs⟩ := List.forall_mem_cons.mp hbs
  have hend : isBreakOrEnd b := by
    rw [isBreakOrEnd, hb.2]
    rfl
  obtain ⟨hline, hdrop⟩ : chars ((place i l indent
        (word ++ (b :: bs ++ (spaces count ++ rest)))).takeWhile (!isBreakOrEnd ·.char)) = word
      ∧ dropLine (place i l indent (word ++ (b :: bs ++ (spaces count ++ rest))))
        = place (i + size word) l (indent + word.length) (b :: bs ++ (spaces count ++ rest)) :=
    line_place hword hend
  have hfirst : (word ++ (b :: bs ++ (spaces count ++ rest))).headD endMark ≠ endMark := by
    obtain ⟨x, word, rfl⟩ := List.exists_cons_of_ne_nil hne
    have hx := hword x List.mem_cons_self
    simp only [isBreakOrEnd, Bool.or_eq_false_iff, decide_eq_false_iff_not] at hx
    exact hx.2
  obtain ⟨i', deepest', hbreaks⟩ : ∃ i' deepest', blockBreaks indent limit 0 []
        (place (i + size word + b.utf8Size) (l + 1) 0 (bs ++ (spaces count ++ rest)))
      = some (deepest', [].reverse ++ bs, place (i' + count) (l + 1 + bs.length) count rest) :=
    blockBreaks_place hbs hindent hcount hbreak hstop hlimit
  rw [List.cons_append] at hline hdrop hfirst ⊢
  refine ⟨i', isBlank ((word ++ b :: (bs ++ (spaces count ++ rest))).headD endMark), ?_⟩
  rw [blockLines, first_place, char₀_place, if_pos ⟨rfl, hfirst⟩, hline, hdrop]
  simp only [lineEnd?_place hb.1 hb.2, hbreaks, Option.bind_eq_bind, Option.bind_some,
    Bool.false_and, Bool.false_eq_true, if_false, List.reverse_nil, List.nil_append]

/-- The block ends where a line is indented by less. -/
theorem blockLines_stop (hcount : count ≠ indent) :
  blockLines false indent (limit + 1) done ended breaks wasBlank (place i l count rest)
    = some (done, ended, breaks, place i l count rest)
  := by
  rw [blockLines, first_place, if_neg (fun h => hcount h.1)]

end

/-! ### The lines of a text -/

/-- Within a line a text is indented nowhere. -/
theorem indented_word {indent : Nat} {word : List Char} (hword : ∀ x ∈ word, isBreak x = false) :
  indented indent false (word ++ cs) = word ++ indented indent false cs
  := by
  induction word with
  | nil => rfl
  | cons x word ih =>
    obtain ⟨hx, hword⟩ := List.forall_mem_cons.mp hword
    rw [List.cons_append, indented, hx, ih hword]
    rfl

/-- Ends of lines stand as they are, and what is behind them is indented. -/
theorem indented_breaks {indent : Nat} {broken : Bool} {bs : List Char} (hbs : ∀ x ∈ bs, isBreak x)
    (hbroken : bs = [] → broken = true) :
  indented indent broken (bs ++ cs) = bs ++ indented indent true cs
  := by
  induction bs generalizing broken with
  | nil => rw [hbroken rfl]; rfl
  | cons x bs ih =>
    obtain ⟨hx, hbs⟩ := List.forall_mem_cons.mp hbs
    rw [List.cons_append, indented, if_pos hx, ih hbs fun _ => rfl]
    rfl

/-- The line after an end of line is indented. -/
theorem indented_broken {indent : Nat} (hne : cs ≠ []) (hcs : ∀ x ∈ cs.head?, isBreak x = false) :
  indented indent true cs = spaces indent ++ indented indent false cs
  := by
  obtain ⟨x, cs, rfl⟩ := List.exists_cons_of_ne_nil hne
  simp [indented, hcs x rfl]

theorem headD_indented {indent : Nat} {rest : List Char} (hne : cs ≠ [])
    (hcs : ∀ x ∈ cs.head?, isBreak x = false) :
  (indented indent false cs ++ rest).headD endMark = cs.headD endMark
  := by
  obtain ⟨x, cs, rfl⟩ := List.exists_cons_of_ne_nil hne
  simp [indented, hcs x rfl]

/-- How a text ends when its lines have been read: with its last line, or with an end of line and
further ones. -/
def EndsIn (cs body ended breaks : List Char) : Prop :=
  ∃ trail, cs = body ++ trail ∧ (∀ x ∈ trail, isBreak x)
    ∧ (trail = [] ∨ ∃ b, ended = [b] ∧ trail = b :: breaks)
    ∧ ∃ x, body.getLast? = some x ∧ isBreak x = false

theorem EndsIn.behind {front body ended breaks : List Char} (h : EndsIn cs body ended breaks) :
  EndsIn (front ++ cs) (front ++ body) ended breaks
  := by
  obtain ⟨trail, rfl, htrail, hcase, x, hx, hbreak⟩ := h
  refine ⟨trail, by rw [List.append_assoc], htrail, hcase, x, ?_, hbreak⟩
  rw [List.getLast?_append, hx]
  rfl

/-- A line without its end. -/
structure IsLine (word : List Char) : Prop where
  ne_nil : word ≠ []
  shown : ∀ x ∈ word, isShown x
  unbroken : ∀ x ∈ word, isBreak x = false

theorem IsLine.isBreakOrEnd_eq {word : List Char} (h : IsLine word) :
  ∀ x ∈ word, isBreakOrEnd x = false
  := by
  intro x hx
  rw [isBreakOrEnd, h.unbroken x hx, decide_eq_false (ne_of_isShown (h.shown x hx)).1]
  rfl

/-- A line ends with a character that is no end of line. -/
theorem IsLine.exists_getLast? {word : List Char} (h : IsLine word) :
  ∃ x, word.getLast? = some x ∧ isBreak x = false
  := ⟨word.getLast h.ne_nil, List.getLast?_eq_some_getLast h.ne_nil,
    h.unbroken _ (List.getLast_mem h.ne_nil)⟩

/-- The lines of the text are read up to a line that is indented by less. -/
def ReadsLines (indent count : Nat) (rest cs : List Char) : Prop :=
  ∀ (i l : Nat) (done ended breaks : List Char) (wasBlank : Bool) ⦃limit : Nat⦄,
    cs.length + 1 < limit →
    ∃ i' l' body ended' breaks', l < l' ∧ EndsIn cs body ended' breaks'
      ∧ blockLines false indent limit done ended breaks wasBlank
          (place i l indent (indented indent false cs ++ (spaces count ++ rest)))
        = some (body.reverse ++ (breaks.reverse ++ (ended.reverse ++ done)), ended', breaks',
          place (i' + count) l' count rest)

section

variable {indent count : Nat} {rest word bs more : List Char} {b : Char} (hword : IsLine word)
  (hcount : count < indent)

include hword hcount

/-- A line with its ends of lines, and the lines behind it. -/
theorem readsLines_append (hbs : ∀ x ∈ b :: bs, isShown x ∧ isBreak x) (hne : more ≠ [])
    (hmore : ∀ x ∈ more.head?, isBreak x = false) (hreads : ReadsLines indent count rest more) :
  ReadsLines indent count rest (word ++ (b :: bs ++ more))
  := by
  intro i l done ended breaks wasBlank limit hlimit
  obtain ⟨limit, rfl⟩ : ∃ n, limit = n + 1 + 1 := ⟨limit - 2, by omega⟩
  rw [List.length_append, List.length_append, List.length_cons] at hlimit
  have hnext : isBreak ((indented indent false more ++ (spaces count ++ rest)).headD endMark)
      = false := by
    rw [headD_indented hne hmore]
    obtain ⟨x, more, rfl⟩ := List.exists_cons_of_ne_nil hne
    exact hmore x rfl
  -- The first line with its ends of lines, up to the start of the next line.
  obtain ⟨i₁, wasBlank', hline⟩ : ∃ i' wasBlank', blockLines false indent (limit + 1 + 1) done
        ended breaks wasBlank (place i l indent (word ++ (b :: bs ++ (spaces indent
          ++ (indented indent false more ++ (spaces count ++ rest))))))
      = blockLines false indent (limit + 1)
        (word.reverse ++ (breaks.reverse ++ (ended.reverse ++ done))) [b] bs wasBlank'
        (place (i' + indent) (l + 1 + bs.length) indent
          (indented indent false more ++ (spaces count ++ rest))) :=
    blockLines_line hword.ne_nil hword.isBreakOrEnd_eq hbs (by omega) (Nat.le_refl _) hnext
      (.inl rfl) (by omega)
  have hlimit' : more.length + 1 < limit + 1 := by omega
  obtain ⟨i', l', body, ended', breaks', hl, hends, hlines⟩ :=
    hreads (i₁ + indent) (l + 1 + bs.length)
      (word.reverse ++ (breaks.reverse ++ (ended.reverse ++ done))) [b] bs wasBlank' hlimit'
  refine ⟨i', l', word ++ (b :: bs ++ body), ended', breaks', by omega, hends.behind.behind, ?_⟩
  rw [indented_word hword.unbroken,
    indented_breaks (fun x hx => (hbs x hx).2) (fun h => by cases h), indented_broken hne hmore,
    List.append_assoc, List.append_assoc, List.append_assoc, hline, hlines]
  simp

variable (hblank : isBlank (rest.headD endMark) = false)
  (hbreak : isBreak (rest.headD endMark) = false)

include hblank hbreak

/-- The last line of a text, which has no end of its own. -/
theorem readsLines_word :
  ReadsLines indent count rest word
  := by
  intro i l done ended breaks wasBlank limit hlimit
  obtain ⟨limit, rfl⟩ : ∃ n, limit = n + 1 + 1 := ⟨limit - 2, by omega⟩
  obtain ⟨i', wasBlank', hline⟩ : ∃ i' wasBlank', blockLines false indent (limit + 1 + 1) done
        ended breaks wasBlank (place i l indent (word ++ (['\n'] ++ (spaces count ++ rest))))
      = blockLines false indent (limit + 1)
        (word.reverse ++ (breaks.reverse ++ (ended.reverse ++ done))) ['\n'] [] wasBlank'
        (place (i' + count) (l + 1 + 0) count rest) :=
    blockLines_line hword.ne_nil hword.isBreakOrEnd_eq
      (List.forall_mem_singleton.mpr (by decide)) (by omega) (Nat.le_of_lt hcount) hbreak
      (.inr hblank) (Nat.succ_pos _)
  have hwritten : indented indent false word = word ++ ['\n'] := by
    have happend : indented indent false (word ++ []) = _ := indented_word hword.unbroken
    simpa [indented] using happend
  refine ⟨i', l + 1, word, ['\n'], [], by omega,
    ⟨[], by simp, by simp, .inl rfl, hword.exists_getLast?⟩, ?_⟩
  rw [hwritten, List.append_assoc, hline, blockLines_stop (Nat.ne_of_lt hcount)]

/-- The last line of a text, with ends of lines behind it. -/
theorem readsLines_ended (hbs : ∀ x ∈ b :: bs, isShown x ∧ isBreak x) :
  ReadsLines indent count rest (word ++ b :: bs)
  := by
  intro i l done ended breaks wasBlank limit hlimit
  obtain ⟨limit, rfl⟩ : ∃ n, limit = n + 1 + 1 := ⟨limit - 2, by omega⟩
  rw [List.length_append, List.length_cons] at hlimit
  obtain ⟨i', wasBlank', hline⟩ : ∃ i' wasBlank', blockLines false indent (limit + 1 + 1) done
        ended breaks wasBlank (place i l indent (word ++ (b :: bs ++ (spaces count ++ rest))))
      = blockLines false indent (limit + 1)
        (word.reverse ++ (breaks.reverse ++ (ended.reverse ++ done))) [b] bs wasBlank'
        (place (i' + count) (l + 1 + bs.length) count rest) :=
    blockLines_line hword.ne_nil hword.isBreakOrEnd_eq hbs (by omega) (Nat.le_of_lt hcount)
      hbreak (.inr hblank) (by omega)
  have hwritten : indented indent false (word ++ b :: bs) = word ++ b :: bs := by
    have hbreaks : indented indent false (b :: bs ++ []) = _ :=
      indented_breaks (fun x hx => (hbs x hx).2) fun h => by cases h
    rw [indented_word hword.unbroken, ← List.append_nil (b :: bs), hbreaks]
    rfl
  refine ⟨i', l + 1 + bs.length, word, [b], bs, by omega,
    ⟨b :: bs, rfl, fun x hx => (hbs x hx).2, .inr ⟨b, rfl, rfl⟩, hword.exists_getLast?⟩, ?_⟩
  rw [hwritten, List.append_assoc, hline, blockLines_stop (Nat.ne_of_lt hcount)]

end

/-- The lines of a text are read up to the first line that is indented by less. -/
theorem blockLines_indented {indent count : Nat} {rest : List Char} (hshown : ∀ x ∈ cs, isShown x)
    (hne : cs ≠ []) (hcs : ∀ x ∈ cs.head?, isBreak x = false) (hcount : count < indent)
    (hblank : isBlank (rest.headD endMark) = false)
    (hbreak : isBreak (rest.headD endMark) = false) :
  ReadsLines indent count rest cs
  := by
  -- The induction is on the length: a whole line is read at a time.
  induction hlength : cs.length using Nat.strongRecOn generalizing cs with
  | ind length ih =>
    obtain hword | ⟨word, gap, more, rfl, hword, hgap, hbreaks, hmore⟩ := exists_gap isBreak cs
    · exact readsLines_word ⟨hne, hshown, hword⟩ hcount hblank hbreak
    · obtain ⟨b, bs, rfl⟩ := List.exists_cons_of_ne_nil hgap
      have hwordne : word ≠ [] := by
        rintro rfl
        cases (hbreaks b List.mem_cons_self).symm.trans (hcs b rfl)
      have hline : IsLine word :=
        ⟨hwordne, fun x hx => hshown x (List.mem_append_left _ hx), hword⟩
      have hbs : ∀ x ∈ b :: bs, isShown x ∧ isBreak x := fun x hx =>
        ⟨hshown x (List.mem_append_right _ (List.mem_append_left _ hx)), hbreaks x hx⟩
      by_cases hnil : more = []
      · subst hnil
        rw [List.append_nil]
        exact readsLines_ended hline hcount hblank hbreak hbs
      · rw [List.length_append, List.length_append, List.length_cons] at hlength
        have hreads : ReadsLines indent count rest more :=
          ih more.length (by omega) (fun x hx => hshown x (List.mem_append_right _
            (List.mem_append_right _ hx))) hnil hmore rfl
        exact readsLines_append hline hcount hbs hnil hmore hreads

/-! ### What is said in front of a block -/

/-- How a chomping is written. -/
def Chomping.hint : Chomping → List Char
  | .clip => []
  | .strip => ['-']
  | .keep => ['+']

theorem dropBlanks_place (h : isBlank (cs.headD endMark) = false) :
  dropBlanks (place i l c cs) = place i l c cs
  := by
  obtain ⟨gs, hgs⟩ := exists_place i l c cs
  rw [hgs, dropBlanks, List.dropWhile_cons_of_neg (by simpa using h)]

theorem tail_place (hx : isBreak x = false) :
  (place i l c (x :: cs)).tail = place (i + x.utf8Size) l (c + 1) cs
  := by rw [← List.drop_one, drop_place hx]

/-- What is said in front of a block is read with the end of its line. -/
theorem blockHeader?_place (i l c : Nat) (cs : List Char) (isIndented : Bool)
    (chomping : Chomping) :
  ∃ i', blockHeader?
      (place i l c ((if isIndented then ['2'] else []) ++ chomping.hint ++ '\n' :: cs))
    = some (chomping, if isIndented then 2 else 0, place i' (l + 1) 0 cs)
  := by
  -- The hints are at most a digit and a sign, with the end of the line right behind them.
  have hline : ∀ i c, lineEnd? (place i l c ('\n' :: cs))
      = some ('\n', place (i + 1) (l + 1) 0 cs) :=
    fun _ _ => lineEnd?_place (by decide) (by decide)
  have hblanks : ∀ i c, dropBlanks (place i l c ('\n' :: cs)) = place i l c ('\n' :: cs) :=
    fun _ _ => dropBlanks_place rfl
  have hdigit : ∀ i c cs, (place i l c ('2' :: cs)).tail = place (i + '2'.utf8Size) l (c + 1) cs :=
    fun _ _ _ => tail_place rfl
  have hstrip : ∀ i c cs, (place i l c ('-' :: cs)).tail = place (i + '-'.utf8Size) l (c + 1) cs :=
    fun _ _ _ => tail_place rfl
  have hkeep : ∀ i c cs, (place i l c ('+' :: cs)).tail = place (i + '+'.utf8Size) l (c + 1) cs :=
    fun _ _ _ => tail_place rfl
  cases isIndented with
  | false =>
    cases chomping with
    | clip => exact ⟨i + 1, by simp [blockHeader?, Chomping.hint, hline, hblanks, endMark]⟩
    | strip =>
      exact ⟨i + '-'.utf8Size + 1,
        by simp [blockHeader?, Chomping.hint, hstrip, hline, hblanks, endMark]⟩
    | keep =>
      exact ⟨i + '+'.utf8Size + 1,
        by simp [blockHeader?, Chomping.hint, hkeep, hline, hblanks, endMark]⟩
  | true =>
    cases chomping with
    | clip =>
      exact ⟨i + '2'.utf8Size + 1,
        by simp [blockHeader?, Chomping.hint, hdigit, hline, hblanks, endMark]⟩
    | strip =>
      exact ⟨i + '2'.utf8Size + '-'.utf8Size + 1,
        by simp [blockHeader?, Chomping.hint, hdigit, hstrip, hline, hblanks, endMark]⟩
    | keep =>
      exact ⟨i + '2'.utf8Size + '+'.utf8Size + 1,
        by simp [blockHeader?, Chomping.hint, hdigit, hkeep, hline, hblanks, endMark]⟩

/-- Whether the indentation of a block has to be said. -/
def isIndented : List Char → Bool
  | c :: _ => c = ' ' || isBreak c
  | [] => false

/-- What has to become of the ends of lines at the end of a text. -/
def chompingOf (cs : List Char) : Chomping :=
  match cs.reverse with
  | [] => .strip
  | last :: before =>
    if !isBreak last then .strip
    else if before.isEmpty || before.head?.any isBreak then .keep
    else .clip

theorem blockHints_eq :
  blockHints cs = (if isIndented cs then ['2'] else []) ++ (chompingOf cs).hint
  := by
  have hchomping : (match cs.reverse with
      | [] => ['-']
      | last :: before =>
        if !isBreak last then ['-']
        else if before.isEmpty || before.head?.any isBreak then ['+']
        else []) = (chompingOf cs).hint := by
    rw [chompingOf]
    cases cs.reverse with
    | nil => rfl
    | cons last before =>
      dsimp only
      split
      · rfl
      · split
        · rfl
        · rfl
  unfold blockHints
  rw [← hchomping]
  cases cs with
  | nil => rfl
  | cons x cs => rfl

/-- What is left of the ends of lines at the end of a block. -/
def Chomping.tail (ended breaks : List Char) : Chomping → List Char
  | .strip => []
  | .clip => ended
  | .keep => ended ++ breaks

/-- A text is its lines and what is left of the ends of lines behind them. -/
theorem EndsIn.append_tail {body ended breaks : List Char} (h : EndsIn cs body ended breaks) :
  body ++ (chompingOf cs).tail ended breaks = cs
  := by
  obtain ⟨trail, rfl, htrail, hcase, x, hx, hbreak⟩ := h
  obtain ⟨front, rfl⟩ := List.getLast?_eq_some_iff.mp hx
  obtain rfl | ⟨b, rfl, rfl⟩ := hcase
  · simp [chompingOf, hbreak, Chomping.tail]
  · have hb := htrail b List.mem_cons_self
    obtain rfl | ⟨bs, y, rfl⟩ := List.eq_nil_or_concat breaks
    · simp [chompingOf, hb, hbreak, Chomping.tail]
    · have hy := htrail y (by simp)
      have hbefore : isBreak (bs.getLast?.getD b) = true := by
        cases hbs : bs.getLast? with
        | none => exact hb
        | some z =>
          have hz : z ∈ bs := List.mem_of_getLast? hbs
          exact htrail z (by simp [hz])
      simp [chompingOf, hy, hbefore, Chomping.tail]

/-! ### Blocks -/

section

variable {outer : Int} {indent count limit : Nat} {rest : List Char}

/-- A block is read in three parts: what is said in front of it, the ends of lines before its first
line, and its lines. -/
theorem block_eq {isFolded : Bool} {gs gs₁ gs₂ gs₃ : List Glyph} {chomping : Chomping}
    {increment given deepest indent : Nat} {breaks done ended left : List Char}
    (hheader : blockHeader? gs = some (chomping, increment, gs₁))
    (hgiven : (if increment = 0 then 0 else (max outer 0).toNat + increment) = given)
    (hbreaks : blockBreaks given limit 0 [] gs₁ = some (deepest, breaks, gs₂))
    (hindent : (if given = 0 then max (max deepest (outer + 1).toNat) 1 else given) = indent)
    (hlines : blockLines isFolded indent limit [] [] breaks false gs₂
      = some (done, ended, left, gs₃)) :
  block isFolded outer limit gs = some (done.reverse ++ chomping.tail ended left, gs₃)
  := by
  rw [block, hheader]
  simp only [Option.bind_eq_bind, Option.bind_some, hgiven, hbreaks, hindent, hlines]
  cases chomping with
  | clip => rfl
  | strip => rfl
  | keep => rfl

/-- The indentation of a block is said where its first line does not show it. -/
theorem exists_blockBreaks (i l : Nat) (rest : List Char) {gap more : List Char}
    (hgap : ∀ x ∈ gap, isShown x ∧ isBreak x)
    (hne : more ≠ []) (hshown : ∀ x ∈ more, isShown x) (hmore : ∀ x ∈ more.head?, isBreak x = false)
    (hindent : (max outer 0).toNat + 2 = indent) (hlimit : gap.length < limit) :
  ∃ given i' l' deepest, given = (if isIndented (gap ++ more) then indent else 0)
    ∧ l ≤ l' ∧ (if given = 0 then max (max deepest (outer + 1).toNat) 1 else given) = indent
    ∧ blockBreaks given limit 0 []
        (place i l 0 (gap ++ (spaces indent ++ (indented indent false more ++ rest))))
      = some (deepest, gap, place i' l' indent (indented indent false more ++ rest))
  := by
  obtain ⟨x, more, rfl⟩ := List.exists_cons_of_ne_nil hne
  have hx : isBreak x = false := hmore x rfl
  have hhead : (indented indent false (x :: more) ++ rest).headD endMark = x :=
    headD_indented hne hmore
  -- Without a hint, the first line has to show how far the block is indented.
  cases hsaid : isIndented (gap ++ x :: more) with
  | true =>
    obtain ⟨i', deepest, hbreaks⟩ : ∃ i' deepest', blockBreaks indent limit 0 []
          (place i l 0 (gap ++ (spaces indent ++ (indented indent false (x :: more) ++ rest))))
        = some (deepest', [].reverse ++ gap, place (i' + indent) (l + gap.length) indent _) :=
      blockBreaks_place hgap (by omega) (Nat.le_refl _) (by rwa [hhead]) (.inl rfl) hlimit
    exact ⟨indent, i' + indent, l + gap.length, deepest, rfl, by omega, if_neg (by omega), hbreaks⟩
  | false =>
    obtain rfl : gap = [] := by
      cases gap with
      | nil => rfl
      | cons y gap =>
        have hy := (hgap y List.mem_cons_self).2
        simp [isIndented, hy] at hsaid
    have hblank : isBlank x = false := by
      rw [isBlank_eq (hshown x List.mem_cons_self)]
      simp [isIndented, hx] at hsaid
      simpa using hsaid
    obtain ⟨limit, rfl⟩ : ∃ n, limit = n + 1 := ⟨limit - 1, by simp at hlimit; omega⟩
    refine ⟨0, i + indent, l, indent, rfl, Nat.le_refl l, ?_, ?_⟩
    · rw [if_pos rfl]
      omega
    · exact blockBreaks_first (by rwa [hhead]) (by rwa [hhead])

/-- Of a text of ends of lines alone all of them are kept. -/
theorem chompingOf_breaks (hne : cs ≠ []) (hcs : ∀ x ∈ cs, isBreak x) :
  chompingOf cs = .keep
  := by
  obtain rfl | ⟨bs, y, rfl⟩ := List.eq_nil_or_concat cs
  · cases hne rfl
  · have hy := hcs y (by simp)
    cases hbs : bs.getLast? with
    | none =>
      obtain rfl := List.getLast?_eq_none_iff.mp hbs
      simp [chompingOf, hy]
    | some z =>
      have hz : isBreak z := hcs z (by simp [List.mem_of_getLast? hbs])
      simp [chompingOf, hy, hbs, hz]

/-- A text is ends of lines and what stands behind them. -/
theorem exists_breaks (cs : List Char) :
  ∃ gap more, cs = gap ++ more ∧ (∀ x ∈ gap, isBreak x) ∧ ∀ x ∈ more.head?, isBreak x = false
  := by
  refine ⟨cs.takeWhile isBreak, cs.dropWhile isBreak, List.takeWhile_append_dropWhile.symm,
    fun _ => List.mem_takeWhile_imp, fun x hx => ?_⟩
  have hhead := List.head?_dropWhile_not isBreak cs
  rw [Option.mem_def.mp hx] at hhead
  exact hhead

variable (hindent : (max outer 0).toNat + 2 = indent) (hcount : count < indent)
  (hblank : isBlank (rest.headD endMark) = false) (hbreak : isBreak (rest.headD endMark) = false)

include hindent hcount hblank hbreak

/-- A text of ends of lines alone: the block has no line. -/
theorem block_breaks (hcs : ∀ x ∈ cs, isShown x ∧ isBreak x) (hne : cs ≠ [])
    (hlimit : cs.length + 1 < limit) :
  ∃ i' l', l < l' ∧ block false outer limit
      (place i l c (blockHints cs ++ '\n' :: (indented indent true cs ++ (spaces count ++ rest))))
    = some (cs, place (i' + count) l' count rest)
  := by
  have hbreaks : ∀ x ∈ cs, isBreak x := fun x hx => (hcs x hx).2
  obtain ⟨i₁, hheader⟩ := blockHeader?_place i l c
    (indented indent true cs ++ (spaces count ++ rest)) (isIndented cs) (chompingOf cs)
  have hsaid : isIndented cs = true := by
    obtain ⟨x, cs, rfl⟩ := List.exists_cons_of_ne_nil hne
    simp [isIndented, hbreaks x List.mem_cons_self]
  have hwritten : indented indent true cs = cs := by
    have happend : indented indent true (cs ++ []) = cs ++ indented indent true [] :=
      indented_breaks hbreaks fun _ => rfl
    simpa [indented] using happend
  obtain ⟨limit, rfl⟩ : ∃ n, limit = n + 1 := ⟨limit - 1, by omega⟩
  obtain ⟨i', deepest, hfirst⟩ : ∃ i' deepest, blockBreaks indent (limit + 1) 0 []
        (place i₁ (l + 1) 0 (cs ++ (spaces count ++ rest)))
      = some (deepest, [].reverse ++ cs, place (i' + count) (l + 1 + cs.length) count rest) :=
    blockBreaks_place hcs (by omega) (Nat.le_of_lt hcount) hbreak (.inr hblank) (by omega)
  refine ⟨i', l + 1 + cs.length, by omega, ?_⟩
  rw [blockHints_eq]
  rw [hsaid, hwritten, chompingOf_breaks hne hbreaks] at hheader ⊢
  exact block_eq hheader hindent hfirst (if_neg (by omega)) (blockLines_stop (Nat.ne_of_lt hcount))

/-- A text with a line in it. -/
theorem block_lines {gap more : List Char} (hgap : ∀ x ∈ gap, isShown x ∧ isBreak x)
    (hne : more ≠ []) (hshown : ∀ x ∈ more, isShown x) (hmore : ∀ x ∈ more.head?, isBreak x = false)
    (hlimit : (gap ++ more).length + 1 < limit) :
  ∃ i' l', l < l' ∧ block false outer limit (place i l c (blockHints (gap ++ more)
      ++ '\n' :: (indented indent true (gap ++ more) ++ (spaces count ++ rest))))
    = some (gap ++ more, place (i' + count) l' count rest)
  := by
  rw [List.length_append] at hlimit
  obtain ⟨i₁, hheader⟩ := blockHeader?_place i l c
    (indented indent true (gap ++ more) ++ (spaces count ++ rest)) (isIndented (gap ++ more))
    (chompingOf (gap ++ more))
  have hwritten : indented indent true (gap ++ more)
      = gap ++ (spaces indent ++ indented indent false more) := by
    rw [indented_breaks (fun x hx => (hgap x hx).2) fun _ => rfl, indented_broken hne hmore]
  obtain ⟨given, i₂, l₂, deepest, hgiven, hl₂, hsame, hbreaks⟩ :=
    exists_blockBreaks i₁ (l + 1) (spaces count ++ rest) hgap hne hshown hmore hindent
      (by omega : gap.length < limit)
  have hlimit' : more.length + 1 < limit := by omega
  obtain ⟨i', l', body, ended, breaks, hl', hends, hread⟩ :=
    blockLines_indented hshown hne hmore hcount hblank hbreak i₂ l₂ [] [] gap false hlimit'
  refine ⟨i', l', by omega, ?_⟩
  have htail : (gap ++ body) ++ (chompingOf (gap ++ more)).tail ended breaks = gap ++ more :=
    hends.behind.append_tail
  rw [blockHints_eq]
  simp only [hwritten, List.append_assoc] at hheader ⊢
  rw [block_eq hheader _ hbreaks hsame hread]
  · simpa using htail
  · rw [hgiven]
    split
    · exact hindent
    · rfl

/-- A text that was written as a block is read up to the next line that is indented by less. -/
theorem block_place (hshown : ∀ x ∈ cs, isShown x) (hne : cs ≠ [])
    (hlimit : cs.length + 1 < limit) :
  ∃ i' l', l < l' ∧ block false outer limit
      (place i l c (blockHints cs ++ '\n' :: (indented indent true cs ++ (spaces count ++ rest))))
    = some (cs, place (i' + count) l' count rest)
  := by
  obtain ⟨gap, more, rfl, hgap, hmore⟩ := exists_breaks cs
  have hgap' : ∀ x ∈ gap, isShown x ∧ isBreak x := fun x hx =>
    ⟨hshown x (List.mem_append_left _ hx), hgap x hx⟩
  by_cases hnil : more = []
  · subst hnil
    rw [List.append_nil] at hne hlimit ⊢
    exact block_breaks hindent hcount hblank hbreak hgap' hne hlimit
  · exact block_lines hindent hcount hblank hbreak hgap' hnil
      (fun x hx => hshown x (List.mem_append_right _ hx)) hmore hlimit

end

end DetachedSchema.Yaml.Scalar
