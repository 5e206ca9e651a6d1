import DetachedSchema.Proofs.Yaml.Names
import DetachedSchema.Proofs.Yaml.Scan

/-!
# Reading lines

The tokens of a line that has been printed, from the first word of the line or from a place behind
the colon or the dash in front of a value, up to the start of the line after it.
-/

namespace DetachedSchema.Yaml.Token

open Glyph Scalar

/-! ### The starts of lines -/

/-- Whether a text goes on with a line that is indented by so many spaces, or ends there. -/
def StartsLine (count : Nat) (text : List Char) : Prop :=
  ∃ cs, text = spaces count ++ cs ∧ startsWord (cs.headD endMark)

/-- The state of a reader at the start of a line. -/
def Front.lines (f : Front) (limit i l : Nat) (text : List Char) : State :=
  f.state limit (place i l 0 text) true none

variable {f : Front} {limit i l c k : Nat} {cs more : List Char} {keyAllowed : Bool}
  {simpleKey : Option SimpleKey}

/-- At the start of a line the spaces in front of its first word are passed over, and the blocks to
the right of the word end there. -/
theorem approach_lines (h : startsWord (cs.headD endMark)) (hlimit : limit ≠ 0) :
  approach (f.lines limit i l (spaces k ++ cs))
    = some ((), (f.closed k).state limit (place (i + k) l k cs) true none)
  := by
  have hspaces : approach (f.state limit (place i l 0 (spaces k ++ cs)) true none)
      = some ((), (f.closed (0 + k : Nat)).state limit (place (i + k) l (0 + k) cs) true none) :=
    approach_spaces h rfl hlimit
  rwa [Nat.zero_add] at hspaces

/-- The end of a line has been reached. -/
theorem approach_lineEnd (h : StartsLine k more) (hkey : IsPast (l + 1) simpleKey)
    (hlimit : 1 < limit) :
  approach (f.state limit (place i l c ('\n' :: more)) keyAllowed simpleKey)
    = approach (f.lines limit (i + 1) (l + 1) more)
  := by
  obtain ⟨cs, rfl, hcs⟩ := h
  rw [approach_line hcs hkey hlimit, approach_lines hcs (by omega)]

/-- The first word of a line has been reached. -/
theorem approach_word (h : startsWord (cs.headD endMark)) (hkey : IsPast l simpleKey)
    (hlimit : limit ≠ 0) :
  approach (f.state limit (place (i + k) l k cs) true simpleKey)
    = approach (f.lines limit i l (spaces k ++ cs))
  := by
  have hpast : stillPossible (first (place (i + k + 0) l (k + 0) cs)) simpleKey = some none := by
    apply stillPossible_of_isPast
    rwa [first_place]
  have hword : approach (f.state limit (place (i + k) l k (spaces 0 ++ cs)) true simpleKey)
      = some ((), (f.closed (k + 0 : Nat)).state limit (place (i + k + 0) l (k + 0) cs) true
        none) :=
    approach_spaces h hpast hlimit
  rw [approach_lines h hlimit]
  exact hword

/-- The blocks that are to the right of a line end in front of it. -/
theorem approach_closed {column : Nat} {t : Token} {ts : List Token} (h : StartsLine k more)
    (hk : k < column) (hlimit : limit ≠ 0) :
  approach (((f.opened column t).push ts).lines limit i l more)
    = approach ((f.push (t :: ts ++ [.blockEnd])).lines limit i l more)
  := by
  obtain ⟨cs, rfl, hcs⟩ := h
  have hclosed : ((f.opened column t).push ts).closed k
      = (f.push (t :: ts ++ [.blockEnd])).closed k := Front.closed_opened (by exact_mod_cast hk)
  rw [approach_lines hcs hlimit, approach_lines hcs hlimit, hclosed]

/-- The reader stands at a word that is in the innermost block. -/
theorem approach_head (h : startsWord (cs.headD endMark)) (hindent : f.indent ≤ c)
    (hkey : stillPossible (first (place i l c cs)) simpleKey = some simpleKey)
    (hlimit : limit ≠ 0) :
  approach (f.state limit (place i l c cs) keyAllowed simpleKey)
    = some ((), f.state limit (place i l c cs) keyAllowed simpleKey)
  := by
  have hspaces : approach (f.state limit (place i l c (spaces 0 ++ cs)) keyAllowed simpleKey)
      = some ((), (f.closed (c + 0 : Nat)).state limit (place (i + 0) l (c + 0) cs) keyAllowed
        simpleKey) :=
    approach_spaces h hkey hlimit
  rw [Nat.add_zero, Nat.add_zero, Front.closed_of_le hindent] at hspaces
  exact hspaces

/-! ### Values -/

/-- Indentation makes a text no shorter. -/
theorem length_le_indented (indent : Nat) (broken : Bool) (cs : List Char) :
  cs.length ≤ (indented indent broken cs).length
  := by
  induction cs generalizing broken with
  | nil => exact Nat.zero_le _
  | cons x cs ih =>
    have htrue := ih true
    have hfalse := ih false
    rw [indented]
    split
    · simpa using htrue
    · rw [List.length_append, List.length_cons, List.length_cons]
      omega

/-- A shown character starts a word, unless it is a space, a number sign or an end of line. -/
theorem startsWord_of_isShown {x : Char} (hx : isShown x) (hspace : x ≠ ' ') (hcomment : x ≠ '#')
    (hbreak : isBreak x = false) :
  startsWord x
  := by
  have hmark : x ≠ '\uFEFF' := by
    rintro rfl
    cases hx
  simp [startsWord, isBlank_eq hx, hspace, hcomment, hbreak, hmark]

/-- A key that starts inside of a block may be given up on a later line. -/
theorem isPast_first (hindent : f.indent < c) {line : Nat} (hline : l < line) :
  IsPast line (f.noted keyAllowed (first (place i l c cs)))
  := by
  intro k hk
  cases keyAllowed with
  | true =>
    cases hk
    rw [first_place]
    exact ⟨decide_eq_false (Int.ne_of_lt hindent), hline⟩
  | false => cases hk

section

variable {column : Nat} (i l : Nat) (hmore : StartsLine k more) (hf : f.indent = column)
  (hc : column < c)

include hmore hf hc

/-- A plain text behind a name or a dash is one token, up to the next line. -/
theorem leads_plain (hk : k ≤ column) (h : fitsPlain cs) :
  ∃ i' l', Leads (f.state limit (place i l c (cs ++ '\n' :: more)) keyAllowed none)
    ((f.push [.scalar .plain (String.ofList cs)]).lines limit i' l' more)
  := by
  obtain ⟨ds, rfl, hds⟩ := hmore
  refine ⟨i + size cs + 1, l + 1, Leads.of_limit fun hlimit => ?_⟩
  have hplain := isPlain_of_fitsPlain h
  have hstart := startsWithMark_of_fitsPlain h
  simp only [Front.rest_state, Front.limit_state, length_place, List.length_append,
    List.length_cons, length_spaces] at hlimit
  have hread : Scalar.plain false (f.indent + 1) limit [] [] false
        (place i l c (cs ++ '\n' :: (spaces k ++ ds)))
      = some ([].reverse ++ ([] ++ cs), place (i + size cs + 1 + k) (l + 1) k ds, true) :=
    plain_place hplain (by omega) (by omega) (by omega) (by omega) (isBlank_of_startsWord hds)
      (isBreak_of_startsWord hds)
  obtain ⟨x, cs, rfl⟩ := List.exists_cons_of_ne_nil hplain.ne_nil
  obtain ⟨hspace, hcomment⟩ := hplain.head x rfl
  have hx : isShown x := hplain.shown x List.mem_cons_self
  have hbreak : isBreak x = false := hplain.unbroken x List.mem_cons_self
  have hblank : isBlankOrEnd x = false := by simp [isBlankOrEnd_eq hx, hspace, hbreak]
  have hscan : scanKeyStart plainScalar (f.state limit
        (place i l c (x :: cs ++ '\n' :: (spaces k ++ ds))) keyAllowed none) = some ((), _) :=
    scanKeyStart_state fun key => plainScalar_state hread
  have hword : startsWord ((x :: cs ++ '\n' :: (spaces k ++ ds)).headD endMark) :=
    startsWord_of_isShown hx hspace hcomment hbreak
  -- A plain scalar is read with the gap behind it, up to the first word of the next line.
  apply Leads.of_token (approach_head hword (by omega) rfl (by omega))
    (scanToken_plain hstart hblank (isDocumentMark_place (by omega)) hscan)
  · exact approach_word hds (isPast_first (by omega) (Nat.lt_succ_self l)) (by omega)
  · rfl
  · simp only [Front.lines, Front.rest_state, length_place, List.length_append, List.length_cons]
    omega

/-- A quoted text is one token, whatever quote it has, when it is read up to that quote. -/
theorem leads_quoted {style : Style} {quote : Char} {body : List Char}
    (hquote : (style = .singleQuoted ∧ quote = '\'') ∨ (style = .doubleQuoted ∧ quote = '"'))
    (hread : body.length + 2 ≤ limit → ∃ i' l' c', l ≤ l' ∧ quoted quote limit []
        (place (i + quote.utf8Size) l (c + 1) (body ++ quote :: '\n' :: more))
      = some (cs, place i' l' c' ('\n' :: more))) :
  ∃ i' l', Leads
    (f.state limit (place i l c (quote :: (body ++ quote :: '\n' :: more))) keyAllowed none)
    ((f.push [.scalar style (String.ofList cs)]).lines limit i' l' more)
  := by
  have hword : startsWord quote ∧ isBreak quote = false := by
    obtain ⟨-, rfl⟩ | ⟨-, rfl⟩ := hquote
    · decide
    · decide
  -- A place has to be named even where the limit is too small for the text.
  by_cases hlimit : body.length + more.length + 4 < limit
  · obtain ⟨i', l', c', hl, hread⟩ := hread (by omega)
    have hscan : scanKeyStart (quotedScalar style quote) (f.state limit
          (place i l c (quote :: (body ++ quote :: '\n' :: more))) keyAllowed none)
        = some ((), _) :=
      scanKeyStart_state fun key => quotedScalar_state style hword.2 hread
    refine ⟨i' + 1, l' + 1, Leads.of_token (approach_head hword.1 (by omega) rfl (by omega))
      (scanToken_quote hquote hscan) ?_ rfl ?_⟩
    · exact approach_lineEnd hmore (isPast_first (by omega) (by omega)) (by omega)
    · simp only [Front.lines, Front.rest_state, length_place, List.length_append, List.length_cons]
      omega
  · refine ⟨0, 0, Leads.of_limit fun h => absurd ?_ hlimit⟩
    simp only [Front.rest_state, Front.limit_state, length_place, List.length_append,
      List.length_cons] at h
    omega

/-- A text on lines of its own is one token, with its indentation left out. -/
theorem leads_block (hk : k ≤ column) (hshown : ∀ x ∈ cs, isShown x) (hne : cs ≠ []) :
  ∃ i' l', Leads
    (f.state limit (place i l c
      ('|' :: (blockHints cs ++ '\n' :: (indented (column + 2) true cs ++ more)))) keyAllowed none)
    ((f.push [.scalar .literal (String.ofList cs)]).lines limit i' l' more)
  := by
  obtain ⟨ds, rfl, hds⟩ := hmore
  -- Only where the limit covers the text is there anything to show.
  by_cases hlimit : cs.length + 1 < limit
  · obtain ⟨i', l', hl, hread⟩ : ∃ i' l', l < l' ∧ Scalar.block false f.indent limit
        (place (i + 1) l (c + 1)
          (blockHints cs ++ '\n' :: (indented (column + 2) true cs ++ (spaces k ++ ds))))
      = some (cs, place (i' + k) l' k ds) :=
      block_place (by omega) (by omega) (isBlank_of_startsWord hds) (isBreak_of_startsWord hds)
        hshown hne hlimit
    have hscan : scanBlock .literal (f.state limit (place i l c
        ('|' :: (blockHints cs ++ '\n' :: (indented (column + 2) true cs ++ (spaces k ++ ds)))))
          keyAllowed none) = some ((), _) :=
      scanBlock_state (by decide) hread
    have hbefore : approach (f.state limit (place i l c
        ('|' :: (blockHints cs ++ '\n' :: (indented (column + 2) true cs ++ (spaces k ++ ds)))))
          keyAllowed none) = some ((), _) :=
      approach_head (by exact (by decide : startsWord '|')) (by omega) rfl (by omega)
    refine ⟨i', l', Leads.of_token hbefore (scanToken_bar hscan) ?_ rfl ?_⟩
    · exact approach_word hds (isPast_none _) (by omega)
    · simp only [Front.lines, Front.rest_state, length_place, List.length_append, List.length_cons]
      omega
  · refine ⟨0, 0, Leads.of_limit fun h => absurd ?_ hlimit⟩
    have hlength := length_le_indented (column + 2) true cs
    simp only [Front.rest_state, Front.limit_state, length_place, List.length_append,
      List.length_cons] at h
    omega

/-- An empty list or record in brackets is two tokens. -/
theorem leads_brackets {opening closing : Char} {start stop : Token}
    (hopening : (opening = '[' ∧ start = .flowListStart)
      ∨ (opening = '\x7b' ∧ start = .flowMapStart))
    (hclosing : (closing = ']' ∧ stop = .flowListEnd) ∨ (closing = '\x7d' ∧ stop = .flowMapEnd)) :
  ∃ i' l', Leads (f.state limit (place i l c (opening :: closing :: '\n' :: more)) keyAllowed none)
    ((f.push [start, stop]).lines limit i' l' more)
  := by
  have hword : startsWord opening ∧ opening.utf8Size ≤ 1024 := by
    obtain ⟨rfl, -⟩ | ⟨rfl, -⟩ := hopening
    · decide
    · decide
  have hword' : startsWord closing := by
    obtain ⟨rfl, -⟩ | ⟨rfl, -⟩ := hclosing
    · decide
    · decide
  have hkey : ∀ k ∈ f.noted keyAllowed ⟨opening, i, l, c⟩,
      k.isStale ⟨closing, i + opening.utf8Size, l, c + 1⟩ = false := by
    intro k hk
    cases keyAllowed with
    | true =>
      cases hk
      have hindex : ¬ i + 1024 < i + opening.utf8Size := by omega
      simp [SimpleKey.isStale, Front.keyAt, hindex]
    | false => cases hk
  -- The key that may start at the brackets is kept while they are read, and no colon follows.
  have hpast : IsPast (l + 1) (f.noted keyAllowed ⟨opening, i, l, c⟩) := by
    have hfirst : first (place i l c [opening]) = ⟨opening, i, l, c⟩ := first_place
    rw [← hfirst]
    exact isPast_first (by omega) (Nat.lt_succ_self l)
  refine ⟨i + opening.utf8Size + closing.utf8Size + 1, l + 1, Leads.of_limit fun hlimit => ?_⟩
  simp only [Front.rest_state, Front.limit_state, length_place, List.length_cons] at hlimit
  have hbefore : approach
        (f.state limit (place i l c (opening :: closing :: '\n' :: more)) keyAllowed none)
      = some ((), _) :=
    approach_head hword.1 (by omega) rfl (by omega)
  have hinside : approach ((f.push [start]).flowState limit
        (place (i + opening.utf8Size) l (c + 1) (closing :: '\n' :: more))
        (f.noted keyAllowed ⟨opening, i, l, c⟩)) = some ((), _) :=
    approach_flow hword' hkey (by omega)
  refine (Leads.of_token hbefore (scanToken_opening hopening) rfl rfl ?_).trans
    (Leads.of_token hinside (scanToken_closing hclosing) ?_ rfl ?_)
  · simp [Front.flowState, length_place]
  · rw [Front.push_push]
    exact approach_lineEnd hmore hpast (by omega)
  · simp [Front.flowState, Front.lines, length_place]

end

/-! ### Items and members -/

/-- The innermost block is in the column of what was opened there. -/
theorem indent_opening {t : Token} (h : f.indent ≤ c) :
  (f.opening c t).indent = c
  := by
  rw [Front.opening]
  split
  · rfl
  · omega

/-- Spaces in front of a word are passed over with it. -/
theorem approach_space (h : startsWord (cs.headD endMark)) (hlimit : limit ≠ 0) :
  approach (f.state limit (place i l c (' ' :: cs)) keyAllowed none)
    = approach (f.state limit (place (i + 1) l (c + 1) cs) keyAllowed none)
  := by
  have hspace : approach (f.state limit (place i l c (spaces 1 ++ cs)) keyAllowed none) = _ :=
    approach_spaces h rfl hlimit
  have hword : approach (f.state limit (place (i + 1) l (c + 1) (spaces 0 ++ cs)) keyAllowed none)
      = _ := approach_spaces h rfl hlimit
  exact hspace.trans hword.symm

/-- A space in front of a word leads to the word. -/
theorem leads_space (h : startsWord (cs.headD endMark)) :
  Leads (f.state limit (place i l c (' ' :: cs)) keyAllowed none)
    (f.state limit (place (i + 1) l (c + 1) cs) keyAllowed none)
  := by
  refine Leads.of_limit fun hlimit => Leads.of_same ?_ rfl ?_
  · exact approach_space h (Nat.zero_lt_of_lt hlimit).ne'
  · simp [length_place]

/-- The start of a line leads to its first word. -/
theorem leads_lines (h : startsWord (cs.headD endMark)) :
  Leads (f.lines limit i l (spaces k ++ cs)) (f.state limit (place (i + k) l k cs) true none)
  := by
  refine Leads.of_limit fun hlimit => Leads.of_same ?_ rfl ?_
  · exact (approach_word h (isPast_none l) (Nat.zero_lt_of_lt hlimit).ne').symm
  · simp [Front.lines, length_place]

/-- A list or record starts on the line after its name. -/
theorem leads_nextLine (i l : Nat) (h : StartsLine k more) :
  Leads (f.state limit (place i l c ('\n' :: more)) false none)
    (f.lines limit (i + 1) (l + 1) more)
  := by
  refine Leads.of_limit fun hlimit => Leads.of_same ?_ rfl ?_
  · refine approach_lineEnd h (isPast_none _) ?_
    simp only [Front.rest_state, Front.limit_state, length_place, List.length_cons] at hlimit
    omega
  · simp [Front.lines, length_place]

/-- A block that has been started ends in front of the next line. -/
theorem Leads.closed {s : State} {column : Nat} {t : Token} {ts : List Token}
    (h : Leads s (((f.opening column t).push ts).lines limit i l more))
    (hindent : f.indent < column) (hmore : StartsLine k more) (hk : k < column) :
  Leads s ((f.push (t :: ts ++ [.blockEnd])).lines limit i l more)
  := by
  rw [Front.opening, if_pos hindent] at h
  refine h.trans (Leads.of_limit fun hlimit => Leads.of_same ?_ rfl (Nat.le_refl _))
  exact approach_closed hmore hk (Nat.zero_lt_of_lt hlimit).ne'

/-- No block is opened in the column of the innermost one. -/
theorem opening_eq {t : Token} (h : f.indent = c) :
  f.opening c t = f
  := by
  rw [Front.opening, if_neg (by omega)]

/-- A dash and the space behind it. -/
theorem leads_dash (i l : Nat) (h : startsWord (cs.headD endMark)) (hindent : f.indent ≤ c) :
  Leads (f.state limit (place i l c ('-' :: ' ' :: cs)) true none)
    (((f.opening c .blockListStart).push [.blockEntry]).state limit (place (i + 2) l (c + 2) cs)
      true none)
  := by
  refine Leads.of_limit fun hlimit => ?_
  simp only [Front.rest_state, Front.limit_state, length_place] at hlimit
  have hbefore : approach (f.state limit (place i l c ('-' :: ' ' :: cs)) true none)
      = some ((), f.state limit (place i l c ('-' :: ' ' :: cs)) true none) :=
    approach_head (by exact (by decide : startsWord '-')) hindent rfl (by omega)
  refine Leads.of_token hbefore (scanToken_dash f limit i l c cs)
    (approach_space h (by omega)) rfl ?_
  simp [length_place]

/-- A name starts a word. -/
theorem startsWord_of_isLetter {x : Char} (hx : isLetter x) :
  startsWord x
  := by
  have hword : isBlankOrEnd x = false := isBlankOrEnd_of_isLetter hx
  simp [startsWord, isBlank_of_isBlankOrEnd hword, isBreak_of_isBlankOrEnd hword,
    ne_of_isLetter hx (by decide : isLetter '#' = false),
    ne_of_isLetter hx (by decide : isLetter '\uFEFF' = false)]

section

variable {name : String} {y : Char} (hname : IsName name) (hy : isBlankOrEnd y)

include hname hy

/-- A name is read as a plain scalar, and noted as what may turn out to be a key. -/
theorem scanToken_name (hlimit : limit ≠ 0) :
  scanToken (f.state limit (place i l c (name.toList ++ ':' :: y :: cs)) true none)
    = some (true, (f.push [.scalar .plain name]).state limit
        (place (i + size name.toList) l (c + name.toList.length) (':' :: y :: cs)) false
        (some (f.keyAt (first (place i l c (name.toList ++ ':' :: y :: cs))))))
  := by
  obtain ⟨limit, rfl⟩ := Nat.exists_eq_succ_of_ne_zero hlimit
  have hread : Scalar.plain false (f.indent + 1) (limit + 1) [] [] false
        (place i l c (name.toList ++ ':' :: y :: cs)) = some (name.toList, _, false) :=
    plain_name hname.letters hname.ne_nil hy
  have hscan : scanKeyStart plainScalar (f.state (limit + 1)
        (place i l c (name.toList ++ ':' :: y :: cs)) true none) = some ((), _) :=
    scanKeyStart_state fun key => plainScalar_state hread
  rw [String.ofList_toList] at hscan
  obtain ⟨x, xs, hxs⟩ := List.exists_cons_of_ne_nil hname.ne_nil
  have hx : isLetter x := hname.letters x (by rw [hxs]; exact List.mem_cons_self)
  rw [hxs] at hscan ⊢
  exact scanToken_plain (startsWithMark_eq_false (by decide) hx xs) (isBlankOrEnd_of_isLetter hx)
    (isDocumentMark_of_isLetter hx) hscan

/-- A name and the colon behind it. -/
theorem leads_name (i l : Nat) (cs : List Char) (hindent : f.indent ≤ c) :
  ∃ i' c', c < c' ∧ Leads
    (f.state limit (place i l c (name.toList ++ ':' :: y :: cs)) true none)
    (((f.opening c .blockMapStart).push [.key, .scalar .plain name, .value]).state limit
      (place i' l c' (y :: cs)) false none)
  := by
  refine ⟨i + size name.toList + 1, c + name.toList.length + 1, by omega,
    Leads.of_limit fun hlimit => ?_⟩
  simp only [Front.rest_state, Front.limit_state, length_place, List.length_append,
    List.length_cons] at hlimit
  obtain ⟨x, xs, hxs⟩ := List.exists_cons_of_ne_nil hname.ne_nil
  have hword : startsWord ((name.toList ++ ':' :: y :: cs).headD endMark) := by
    rw [hxs]
    exact startsWord_of_isLetter (hname.letters x (by rw [hxs]; exact List.mem_cons_self))
  -- A name is short and on one line, so that the key is not given up before the colon.
  have hkey : ∀ k ∈ some (f.keyAt (first (place i l c (name.toList ++ ':' :: y :: cs)))),
      k.isStale (first (place (i + size name.toList) l (c + name.toList.length) (':' :: y :: cs)))
        = false := by
    rintro k ⟨⟩
    rw [first_place, first_place, size_of_isLetter hname.letters]
    simp [SimpleKey.isStale, Front.keyAt, hname.length_le]
  have hcolon : approach ((f.push [.scalar .plain name]).state limit
        (place (i + size name.toList) l (c + name.toList.length) (':' :: y :: cs)) false
        (some (f.keyAt (first (place i l c (name.toList ++ ':' :: y :: cs)))))) = some ((), _) :=
    approach_head (by exact (by decide : startsWord ':')) (by rw [Front.indent_push]; omega)
      (stillPossible_of_not_stale hkey) (by omega)
  have hcolumn : (first (place i l c (name.toList ++ ':' :: y :: cs))).column = c := by
    rw [first_place]
  refine (Leads.of_token (approach_head hword hindent rfl (by omega))
      (scanToken_name hname hy (by omega)) rfl rfl ?_).trans
    (Leads.of_token hcolon (scanToken_colon f _ _ _ _ _ _ hy cs) ?_ rfl ?_)
  · simp only [Front.rest_state, length_place, List.length_append, List.length_cons, hxs]
    omega
  · rw [hcolumn]
  · simp [length_place]

end

end DetachedSchema.Yaml.Token
