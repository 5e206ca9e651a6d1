import DetachedSchema.Proofs.Yaml.Approach
import DetachedSchema.Proofs.Yaml.Styles

/-!
# Reading tokens

The tokens of a printed text, each where it starts: the marks before items and behind names, plain
and quoted scalars and blocks, and brackets with nothing between them.
-/

namespace DetachedSchema.Yaml.Token

open Glyph Scalar

variable {f : Front} {limit i l c : Nat} {cs : List Char} {keyAllowed : Bool}
  {simpleKey : Option SimpleKey}

/-! ### Marks -/

/-- The front after a mark in a column, which starts a block when the innermost one is to the left
of it. -/
def Front.opening (f : Front) (column : Nat) (t : Token) : Front :=
  if f.indent < column then f.opened column t else f

/-- A token that is read is put behind those in front of it. -/
theorem emit_state (t : Token) (rest : List Glyph) :
  emit t (f.state limit rest keyAllowed simpleKey)
    = some ((), (f.push [t]).state limit rest keyAllowed simpleKey)
  := rfl

/-- A token can be put where a key started, in front of those that have been read since. -/
theorem insert_state (t : Token) (ts : List Token) (rest : List Glyph) :
  insert f.found.length t ((f.push ts).state limit rest keyAllowed simpleKey)
    = some ((), (f.push (t :: ts)).state limit rest keyAllowed simpleKey)
  := by
  have hafter : (f.push ts).found.length - f.found.length = ts.reverse.length := by
    rw [Front.push, List.length_append, Nat.add_sub_cancel]
  have hfound : (f.push ts).found.take ts.reverse.length
      ++ t :: (f.push ts).found.drop ts.reverse.length = (f.push (t :: ts)).found := by
    rw [Front.push, List.take_left, List.drop_left, Front.push, List.reverse_cons,
      List.append_assoc]
    rfl
  have hlength : (f.push ts).found.length + 1 = (f.push (t :: ts)).found.length := by
    simp only [Front.push, List.length_append, List.length_reverse, List.length_cons]
    omega
  have hread : insert f.found.length t ((f.push ts).state limit rest keyAllowed simpleKey)
      = some ((), { (f.push ts).state limit rest keyAllowed simpleKey with
        found := (f.push ts).found.take ((f.push ts).found.length - f.found.length)
          ++ t :: (f.push ts).found.drop ((f.push ts).found.length - f.found.length)
        count := (f.push ts).found.length + 1 }) := rfl
  rw [hread, hafter, hfound, hlength]
  rfl

/-- A block is opened in front of the tokens since a place, when the innermost block is to the left
of its column. -/
theorem openBlock_state (column : Nat) (t : Token) (ts : List Token) (rest : List Glyph) :
  openBlock column f.found.length t ((f.push ts).state limit rest keyAllowed simpleKey)
    = some ((), ((f.opening column t).push ts).state limit rest keyAllowed simpleKey)
  := by
  by_cases h : f.indent < column
  · let g : Front := { f with indent := column, indents := f.indent :: f.indents }
    have hinsert : insert g.found.length t ((g.push ts).state limit rest keyAllowed simpleKey)
        = some ((), (g.push (t :: ts)).state limit rest keyAllowed simpleKey) :=
      insert_state t ts rest
    have hpush : g.push (t :: ts) = (f.opening column t).push ts := by
      simp [g, Front.opening, h, Front.push, Front.opened]
    rw [openBlock, bind_apply, get_apply, Option.bind_some, if_pos (by simp [h]), ← hpush]
    exact hinsert
  · rw [openBlock, bind_apply, get_apply, Option.bind_some, if_neg (by simp [h]), Front.opening,
      if_neg h]
    rfl

theorem dropKey_state (rest : List Glyph) :
  dropKey (f.state limit rest keyAllowed none) = some ((), f.state limit rest keyAllowed none)
  := rfl

theorem allowKey_state (rest : List Glyph) (allowed : Bool) :
  allowKey allowed (f.state limit rest keyAllowed simpleKey)
    = some ((), f.state limit rest allowed simpleKey)
  := rfl

theorem skip_state {x : Char} (hx : isBreak x = false) :
  skip 1 (f.state limit (place i l c (x :: cs)) keyAllowed simpleKey)
    = some ((), f.state limit (place (i + x.utf8Size) l (c + 1) cs) keyAllowed simpleKey)
  := by
  rw [← drop_place hx]
  rfl

/-- The mark of an entry is read, and a block starts in its column when there is none yet. -/
theorem scanBlockMark_state {x : Char} (hx : isBreak x = false) (start t : Token)
    (keyAfter : Bool) :
  scanBlockMark start t keyAfter (f.state limit (place i l c (x :: cs)) true none)
    = some ((), ((f.opening c start).push [t]).state limit
        (place (i + x.utf8Size) l (c + 1) cs) keyAfter none)
  := by
  have hopen : openBlock c f.found.length start (f.state limit (place i l c (x :: cs)) true none)
      = some ((), (f.opening c start).state limit (place i l c (x :: cs)) true none) :=
    openBlock_state c start [] _
  simp [scanBlockMark, guard, bind_apply, get_apply, pure_apply, hopen, dropKey_state,
    allowKey_state, skip_state hx, emit_state]

/-- A dash with a space behind it is the mark of an item. -/
theorem scanToken_dash (f : Front) (limit i l c : Nat) (cs : List Char) :
  scanToken (f.state limit (place i l c ('-' :: ' ' :: cs)) true none)
    = some (true, ((f.opening c .blockListStart).push [.blockEntry]).state limit
        (place (i + 1) l (c + 1) (' ' :: cs)) true none)
  := by
  have hmark : isBreak '-' = false := by decide
  have hsize : '-'.utf8Size = 1 := by decide
  simp [scanToken, bind_apply, get_apply, map_apply, isMark, isBlankOrEnd, isBlank, endMark,
    scanBlockMark_state hmark, hsize]

/-- At the end of the text all blocks end. -/
theorem scanToken_end (f : Front) (limit i l c : Nat) :
  ∃ s, scanToken (f.state limit (place i l c []) true none) = some (false, s)
    ∧ s.found = ((f.closed (-1)).push [.textEnd]).found
  := by
  have hmark : char₀ (place i l c []) = endMark := rfl
  simp only [scanToken, bind_apply, get_apply, pure_apply, Option.bind_some, Front.rest_state,
    hmark, if_true, scanMark, closeBlocks_state, dropKey_state, allowKey_state]
  exact ⟨_, rfl, rfl⟩

/-! ### Keys -/

/-- The key that may start at a glyph. -/
def Front.keyAt (f : Front) (g : Glyph) : SimpleKey := ⟨f.found.length, f.indent = g.column, g⟩

/-- The key that is noted at a glyph, if one may start there. -/
def Front.noted (f : Front) (keyAllowed : Bool) (g : Glyph) : Option SimpleKey :=
  if keyAllowed then some (f.keyAt g) else none

theorem noteKey_state :
  noteKey (f.state limit (place i l c cs) keyAllowed none)
    = some ((), f.state limit (place i l c cs) keyAllowed
        (f.noted keyAllowed (first (place i l c cs))))
  := by
  cases keyAllowed with
  | true => rfl
  | false => rfl

/-- A token that may turn out to be a key is read, and the key is noted at its start. -/
theorem scanKeyStart_state {token : Scan Token} {rest : List Glyph} {allowed : Bool} {t : Token}
    (h : ∀ key, token (f.state limit (place i l c cs) false key)
      = some (t, f.state limit rest allowed key)) :
  scanKeyStart token (f.state limit (place i l c cs) keyAllowed none)
    = some ((), (f.push [t]).state limit rest allowed
        (f.noted keyAllowed (first (place i l c cs))))
  := by
  simp only [scanKeyStart, bind_apply, noteKey_state, allowKey_state, h, emit_state,
    Option.bind_some]

/-- A colon makes a key of the token before it: the mark of the key is put in front of that token,
and with it the start of the block. -/
theorem scanValue_state {x : Char} (hx : isBreak x = false) (g : Glyph) (t : Token) :
  scanValue ((f.push [t]).state limit (place i l c (x :: cs)) keyAllowed (some (f.keyAt g)))
    = some ((), ((f.opening g.column .blockMapStart).push [.key, t, .value]).state limit
        (place (i + x.utf8Size) l (c + 1) cs) false none)
  := by
  simp only [scanValue, bind_apply, get_apply, Option.bind_some, Front.simpleKey_state,
    Front.keyAt, insert_state, openBlock_state]
  change (skip 1 (((f.opening g.column .blockMapStart).push [.key, t]).state limit
    (place i l c (x :: cs)) false none)).bind (fun p => emit .value p.2) = _
  rw [skip_state hx, Option.bind_some, emit_state, Front.push_push]
  rfl

/-- A colon with a gap behind it is the mark of a value. -/
theorem scanToken_colon (f : Front) (t : Token) (limit i l c : Nat) (g : Glyph) {y : Char}
    (hy : isBlankOrEnd y) (cs : List Char) :
  scanToken ((f.push [t]).state limit (place i l c (':' :: y :: cs)) false (some (f.keyAt g)))
    = some (true, ((f.opening g.column .blockMapStart).push [.key, t, .value]).state limit
        (place (i + 1) l (c + 1) (y :: cs)) false none)
  := by
  have hmark : isBreak ':' = false := by decide
  have hsize : ':'.utf8Size = 1 := by decide
  simp [scanToken, bind_apply, get_apply, map_apply, isMark, hy, endMark, scanValue_state hmark,
    hsize]

/-! ### Scalars -/

/-- A plain scalar is a token, after which a key may start where a line has ended. -/
theorem plainScalar_state {gs rest : List Glyph} {broken : Bool}
    (h : Scalar.plain false (f.indent + 1) limit [] [] false gs = some (cs, rest, broken)) :
  plainScalar (f.state limit gs false simpleKey)
    = some (.scalar .plain (String.ofList cs), f.state limit rest broken simpleKey)
  := by
  simp only [plainScalar, bind_apply, get_apply, Option.bind_some, Front.rest_state,
    Front.inFlow_state, Front.indent_state, Front.limit_state, h]
  cases broken with
  | true => rfl
  | false => rfl

/-- A quoted scalar is a token up to its closing quote. -/
theorem quotedScalar_state {quote : Char} {ds : List Char} {rest : List Glyph} (style : Style)
    (hquote : isBreak quote = false)
    (h : Scalar.quoted quote limit [] (place (i + quote.utf8Size) l (c + 1) cs) = some (ds, rest)) :
  quotedScalar style quote (f.state limit (place i l c (quote :: cs)) keyAllowed simpleKey)
    = some (.scalar style (String.ofList ds), f.state limit rest keyAllowed simpleKey)
  := by
  simp only [quotedScalar, bind_apply, get_apply, Option.bind_some, skip_state hquote,
    Front.rest_state, Front.limit_state, h]
  rfl

/-- A block of text is a token, after which a key may start. -/
theorem scanBlock_state {mark : Char} {ds : List Char} {rest : List Glyph}
    (hmark : isBreak mark = false)
    (h : Scalar.block false f.indent limit (place (i + mark.utf8Size) l (c + 1) cs)
      = some (ds, rest)) :
  scanBlock .literal (f.state limit (place i l c (mark :: cs)) keyAllowed none)
    = some ((), (f.push [.scalar .literal (String.ofList ds)]).state limit rest true none)
  := by
  have hliteral : decide (Style.literal = .folded) = false := rfl
  simp only [scanBlock, bind_apply, get_apply, Option.bind_some, dropKey_state, allowKey_state,
    skip_state hmark, Front.rest_state, Front.limit_state, Front.indent_state, hliteral, h]
  rfl

theorem isBlankOrEnd_headD_append {rest : List Char} (h : isBlankOrEnd (cs.headD endMark) = false) :
  isBlankOrEnd ((cs ++ rest).headD endMark) = false
  := by
  cases cs with
  | nil => cases h
  | cons x cs => exact h

section

variable {x : Char} {rest : List Char} (hstart : startsWithMark (x :: cs) = false)
  (hblank : isBlankOrEnd x = false)

include hstart hblank

/-- A text that does not start like a mark starts like a plain scalar. -/
theorem startsPlain_place :
  startsPlain false (place i l c (x :: cs ++ rest))
  := by
  obtain ⟨hmarks, hnext⟩ := startsWithMark_cons hstart
  have hfirst : char₀ (place i l c (x :: cs ++ rest)) = x := char₀_place
  rw [startsPlain, hfirst, hblank]
  by_cases hindicator : x = '?' ∨ x = ':' ∨ x = '-'
  · have hword : isBlankOrEnd (charAt (place i l c (x :: cs ++ rest)) 1) = false := by
      rw [charAt_place]
      exact isBlankOrEnd_headD_append (hnext hindicator)
    rw [hword, isBlank_of_isBlankOrEnd hword]
    obtain rfl | rfl | rfl := hindicator
    · rfl
    · rfl
    · rfl
  · obtain ⟨hquestion, hcolon, hdash⟩ : x ≠ '?' ∧ x ≠ ':' ∧ x ≠ '-' := by
      simpa using hindicator
    have hcover : "-?:,[]\x7b\x7d#&*!|>'\"%@\x60".toList ⊆ '?' :: ':' :: '-' :: marks := by decide
    have hlist : "-?:,[]\x7b\x7d#&*!|>'\"%@\x60".toList.contains x = false := by
      rw [List.contains_eq_mem, decide_eq_false_iff_not]
      intro hx
      simpa [hquestion, hcolon, hdash, hmarks] using hcover hx
    rw [hlist]
    rfl

/-- A text that starts like a plain scalar is read as one. -/
theorem scanToken_plain {s : State}
    (hdocument : isDocumentMark (place i l c (x :: cs ++ rest)) = false)
    (hscan : scanKeyStart plainScalar
      (f.state limit (place i l c (x :: cs ++ rest)) keyAllowed none) = some ((), s)) :
  scanToken (f.state limit (place i l c (x :: cs ++ rest)) keyAllowed none) = some (true, s)
  := by
  -- The reader looks for each mark in turn, and the text starts with none of them.
  obtain ⟨hmarks, hnext⟩ := startsWithMark_cons hstart
  have hne : ∀ y ∈ marks, x ≠ y := by
    rintro y hy rfl
    exact hmarks hy
  have hfirst : char₀ (place i l c (x :: cs ++ rest)) = x := char₀_place
  have hindicates : ∀ y, y = '?' ∨ y = ':' ∨ y = '-' →
      (decide (x = y) && isBlankOrEnd (charAt (place i l c (x :: cs ++ rest)) 1)) = false := by
    intro y hy
    rw [Bool.and_eq_false_iff, decide_eq_false_iff_not, charAt_place]
    by_cases heq : x = y
    · exact .inr (isBlankOrEnd_headD_append (hnext (heq ▸ hy)))
    · exact .inl heq
  have hend : x ≠ endMark := by
    rintro rfl
    cases hblank
  simp only [isDocumentMark, Bool.or_eq_false_iff] at hdocument
  simp only [scanToken, bind_apply, get_apply, Option.bind_some, Front.rest_state,
    Front.inFlow_state, hfirst, hend, if_false, decide_false, Bool.and_false, Bool.false_and,
    Bool.false_eq_true, Bool.false_or, if_true, hdocument.1, hdocument.2,
    hindicates '-' (.inr (.inr rfl)), hindicates '?' (.inl rfl), hindicates ':' (.inr (.inl rfl)),
    hne '%' (by decide), hne '[' (by decide), hne ']' (by decide), hne '\x7b' (by decide),
    hne '\x7d' (by decide), hne ',' (by decide), hne '*' (by decide), hne '&' (by decide),
    hne '!' (by decide), hne '|' (by decide), hne '>' (by decide), hne '\'' (by decide),
    hne '"' (by decide), startsPlain_place hstart hblank, hscan]
  rfl

end

/-- A text that starts with a quote is read as a quoted scalar. -/
theorem scanToken_quote {style : Style} {quote : Char} {s : State}
    (h : (style = .singleQuoted ∧ quote = '\'') ∨ (style = .doubleQuoted ∧ quote = '"'))
    (hscan : scanKeyStart (quotedScalar style quote)
      (f.state limit (place i l c (quote :: cs)) keyAllowed none) = some ((), s)) :
  scanToken (f.state limit (place i l c (quote :: cs)) keyAllowed none) = some (true, s)
  := by
  obtain ⟨rfl, rfl⟩ | ⟨rfl, rfl⟩ := h
  all_goals
    simp [scanToken, bind_apply, get_apply, map_apply, isMark, endMark, hscan]

/-- A text that starts with a bar is read as a block. -/
theorem scanToken_bar {s : State}
    (hscan : scanBlock .literal (f.state limit (place i l c ('|' :: cs)) keyAllowed none)
      = some ((), s)) :
  scanToken (f.state limit (place i l c ('|' :: cs)) keyAllowed none) = some (true, s)
  := by
  simp [scanToken, bind_apply, get_apply, map_apply, isMark, endMark, hscan]

/-! ### Brackets -/

/-- The state of a reader inside of brackets. -/
def Front.flowState (f : Front) (limit : Nat) (rest : List Glyph) (simpleKey : Option SimpleKey) :
    State :=
  { f.state limit rest true none with outerKeys := [simpleKey] }

/-- An opening bracket is read, and what is behind it is inside of brackets. -/
theorem scanOpening_state {x : Char} (hx : isBreak x = false) (t : Token) :
  scanOpening t (f.state limit (place i l c (x :: cs)) keyAllowed none)
    = some ((), (f.push [t]).flowState limit (place (i + x.utf8Size) l (c + 1) cs)
        (f.noted keyAllowed (first (place i l c (x :: cs)))))
  := by
  simp only [scanOpening, bind_apply, noteKey_state, Option.bind_some]
  rw [← drop_place hx]
  rfl

/-- A key that has not become stale is kept. -/
theorem stillPossible_of_not_stale {now : Glyph}
    (h : ∀ k ∈ simpleKey, k.isStale now = false) :
  stillPossible now simpleKey = some simpleKey
  := by
  cases simpleKey with
  | none => rfl
  | some k => simp [stillPossible, h k rfl]

/-- Inside of brackets nothing is passed over where a word stands. -/
theorem skipGap_flow {x : Char} {n : Nat} (hx : startsWord x) :
  skipGap (n + 1) (f.flowState limit (place i l c (x :: cs)) simpleKey)
    = some ((), f.flowState limit (place i l c (x :: cs)) simpleKey)
  := by
  have hdrop : ∀ tabs : Bool, (place i l c (x :: cs)).dropWhile
        (fun g => decide (g.char = ' ') || (tabs && decide (g.char = '\t')))
      = place i l c (x :: cs) := by
    intro tabs
    rw [place_cons (isBreak_of_startsWord hx), List.dropWhile_cons_of_neg]
    simp [ne_of_startsWord hx (by decide : startsWord ' ' = false),
      ne_of_startsWord hx (by decide : startsWord '\t' = false)]
  have hline : lineEnd? (place i l c (x :: cs)) = none :=
    lineEnd?_place_of_not (isBreak_of_startsWord hx)
  have hmark : x ≠ '\uFEFF' := ne_of_startsWord hx (by decide)
  have hcomment : x ≠ '#' := ne_of_startsWord hx (by decide)
  have hrest : (f.flowState limit (place i l c (x :: cs)) simpleKey).rest = place i l c (x :: cs) :=
    rfl
  rw [skipGap]
  simp only [bind_apply, get_apply, Option.bind_some, hrest, char₀_place, List.headD_cons, hmark,
    decide_false, Bool.and_false, Bool.false_eq_true, if_false]
  rw [hdrop, char₀_place, List.headD_cons, if_neg hcomment, hline]
  rfl

/-- Inside of brackets the reader stands at the next word as it is. -/
theorem approach_flow {x : Char} (hx : startsWord x)
    (hkey : ∀ k ∈ simpleKey, k.isStale ⟨x, i, l, c⟩ = false) (hlimit : limit ≠ 0) :
  approach (f.flowState limit (place i l c (x :: cs)) simpleKey)
    = some ((), f.flowState limit (place i l c (x :: cs)) simpleKey)
  := by
  obtain ⟨n, rfl⟩ := Nat.exists_eq_succ_of_ne_zero hlimit
  have happroach : approach (f.flowState (n + 1) (place i l c (x :: cs)) simpleKey)
    = (skipGap (n + 1) (f.flowState (n + 1) (place i l c (x :: cs)) simpleKey)).bind fun p =>
      (dropStaleKeys p.2).bind fun q => closeBlocks (first q.2.rest).column q.2 := rfl
  have hdrop : dropStaleKeys (f.flowState (n + 1) (place i l c (x :: cs)) simpleKey)
      = (stillPossible (first (place i l c (x :: cs))) simpleKey).map fun key =>
        ((), f.flowState (n + 1) (place i l c (x :: cs)) key) := by
    simp only [dropStaleKeys, Front.flowState, Front.state, bind_apply, get_apply, Option.bind_some,
      List.mapM_cons, List.mapM_nil]
    cases stillPossible (first (place i l c (x :: cs))) simpleKey with
    | none => rfl
    | some key => rfl
  rw [first_place, List.headD_cons, stillPossible_of_not_stale hkey] at hdrop
  rw [happroach, skipGap_flow hx, Option.bind_some, hdrop]
  rfl

/-- A closing bracket is read, and what is behind it is outside of brackets again. -/
theorem scanClosing_state {x : Char} (hx : isBreak x = false) (t : Token) :
  scanClosing t (f.flowState limit (place i l c (x :: cs)) simpleKey)
    = some ((), (f.push [t]).state limit (place (i + x.utf8Size) l (c + 1) cs) false simpleKey)
  := by
  rw [← drop_place hx]
  rfl

/-- A bracket opens a list or a map. -/
theorem scanToken_opening {x : Char} {t : Token}
    (h : (x = '[' ∧ t = .flowListStart) ∨ (x = '\x7b' ∧ t = .flowMapStart)) :
  scanToken (f.state limit (place i l c (x :: cs)) keyAllowed none)
    = some (true, (f.push [t]).flowState limit (place (i + x.utf8Size) l (c + 1) cs)
        (f.noted keyAllowed ⟨x, i, l, c⟩))
  := by
  obtain ⟨rfl, rfl⟩ | ⟨rfl, rfl⟩ := h
  all_goals
    simp [scanToken, bind_apply, get_apply, map_apply, isMark, endMark, scanOpening_state, isBreak]

/-- A bracket closes a list or a map. -/
theorem scanToken_closing {x : Char} {t : Token}
    (h : (x = ']' ∧ t = .flowListEnd) ∨ (x = '\x7d' ∧ t = .flowMapEnd)) :
  scanToken (f.flowState limit (place i l c (x :: cs)) simpleKey)
    = some (true, (f.push [t]).state limit (place (i + x.utf8Size) l (c + 1) cs) false simpleKey)
  := by
  have hrest : (f.flowState limit (place i l c (x :: cs)) simpleKey).rest = place i l c (x :: cs) :=
    rfl
  obtain ⟨rfl, rfl⟩ | ⟨rfl, rfl⟩ := h
  all_goals
    simp [scanToken, bind_apply, get_apply, map_apply, isMark, endMark, scanClosing_state, isBreak,
      hrest]

end DetachedSchema.Yaml.Token
