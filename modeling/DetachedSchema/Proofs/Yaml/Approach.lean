import DetachedSchema.Proofs.Yaml.Block
import DetachedSchema.Yaml.Token

/-!
# Moving to tokens

A reader of tokens passes over the gap in front of the next token, gives up the key that can no
longer end, and ends the blocks that the token's column is left of.  Where it stands after that is
all that the further tokens depend on.
-/

namespace DetachedSchema.Yaml.Token

open Glyph Scalar

/-! ### Steps -/

section

variable {α β : Type}

theorem bind_apply (x : Scan α) (g : α → Scan β) (s : State) :
  (x >>= g) s = (x s).bind fun p => g p.1 p.2
  := rfl

theorem get_apply (s : State) :
  (get : Scan State) s = some (s, s)
  := rfl

theorem pure_apply (a : α) (s : State) :
  (pure a : Scan α) s = some (a, s)
  := rfl

theorem map_apply (g : α → β) (x : Scan α) (s : State) :
  (g <$> x) s = (x s).bind fun p => some (g p.1, p.2)
  := rfl

end

/-! ### Places in a text -/

/-- The blocks around a place and the tokens in front of it, the last one first. -/
structure Front where
  indent : Int := -1
  indents : List Int := []
  found : List Token := []

namespace Front

/-- The state of a reader that is at a text outside of brackets. -/
def state (f : Front) (limit : Nat) (rest : List Glyph) (keyAllowed : Bool)
    (simpleKey : Option SimpleKey) : State where
  rest := rest
  limit := limit
  indent := f.indent
  indents := f.indents
  keyAllowed := keyAllowed
  simpleKey := simpleKey
  found := f.found
  count := f.found.length

section

variable (f : Front) (limit : Nat) (rest : List Glyph) (keyAllowed : Bool)
  (simpleKey : Option SimpleKey)

@[simp] theorem rest_state :
  (f.state limit rest keyAllowed simpleKey).rest = rest
  := rfl

@[simp] theorem limit_state :
  (f.state limit rest keyAllowed simpleKey).limit = limit
  := rfl

@[simp] theorem indent_state :
  (f.state limit rest keyAllowed simpleKey).indent = f.indent
  := rfl

@[simp] theorem keyAllowed_state :
  (f.state limit rest keyAllowed simpleKey).keyAllowed = keyAllowed
  := rfl

@[simp] theorem simpleKey_state :
  (f.state limit rest keyAllowed simpleKey).simpleKey = simpleKey
  := rfl

@[simp] theorem count_state :
  (f.state limit rest keyAllowed simpleKey).count = f.found.length
  := rfl

@[simp] theorem inFlow_state :
  (f.state limit rest keyAllowed simpleKey).inFlow = false
  := rfl

end

/-- More tokens. -/
def push (f : Front) (ts : List Token) : Front := { f with found := ts.reverse ++ f.found }

/-- The blocks to the right of a column have been ended. -/
def closed (f : Front) (column : Int) : Front :=
  let (ended, indent, indents) := closedBlocks column f.indent f.indents
  { indent, indents, found := List.replicate ended .blockEnd ++ f.found }

/-- A block in a column has been started. -/
def opened (f : Front) (column : Nat) (t : Token) : Front where
  indent := column
  indents := f.indent :: f.indents
  found := t :: f.found

variable {f : Front} {column k : Int}

@[simp] theorem push_push (ts us : List Token) :
  (f.push ts).push us = f.push (ts ++ us)
  := by simp [push]

@[simp] theorem indent_push (ts : List Token) :
  (f.push ts).indent = f.indent
  := rfl

@[simp] theorem indent_opened (column : Nat) (t : Token) :
  (f.opened column t).indent = column
  := rfl

/-- No block is to the right of a column when the innermost one is not. -/
theorem closed_of_le (h : f.indent ≤ column) :
  f.closed column = f
  := by
  obtain ⟨indent, indents, found⟩ := f
  cases indents with
  | nil => rfl
  | cons outer indents =>
    have hle : ¬ indent > column := Int.not_lt.mpr h
    rw [closed, closedBlocks, if_neg hle]
    rfl

/-- A block that ends before a column has its end mark there. -/
theorem closed_opened {column : Nat} {t : Token} {ts : List Token} (h : k < column) :
  ((f.opened column t).push ts).closed k = (f.push (t :: ts ++ [.blockEnd])).closed k
  := by
  have hgt : (column : Int) > k := h
  simp only [closed, opened, push, closedBlocks, hgt, if_true]
  simp [List.replicate_succ']

end Front

/-! ### Moving to a token -/

/-- Whether the character can be the first of a line or of a word: it is no part of a gap. -/
def startsWord (x : Char) : Bool := !isBlank x && !isBreak x && x ≠ '#' && x ≠ '\uFEFF'

variable {f : Front} {limit i l c k : Nat} {cs : List Char} {keyAllowed : Bool}
  {simpleKey : Option SimpleKey}

/-- A character that starts a word is none of those that do not. -/
theorem ne_of_startsWord {x y : Char} (hx : startsWord x) (hy : startsWord y = false) :
  x ≠ y
  := by
  rintro rfl
  cases hx.symm.trans hy

theorem isBreak_of_startsWord {x : Char} (hx : startsWord x) :
  isBreak x = false
  := by
  simp only [startsWord, Bool.and_eq_true, Bool.not_eq_true'] at hx
  exact hx.1.1.2

theorem isBlank_of_startsWord {x : Char} (hx : startsWord x) :
  isBlank x = false
  := by
  simp only [startsWord, Bool.and_eq_true, Bool.not_eq_true'] at hx
  exact hx.1.1.1

/-- Spaces are passed over up to the end of a line or to a word. -/
theorem skipGap_succ {n : Nat} (hspace : cs.headD endMark ≠ ' ') (htab : cs.headD endMark ≠ '\t')
    (hcomment : cs.headD endMark ≠ '#') (hmark : cs.headD endMark ≠ '\uFEFF') :
  skipGap (n + 1) (f.state limit (place i l c (spaces k ++ cs)) keyAllowed simpleKey)
    = match lineEnd? (place (i + k) l (c + k) cs) with
      | some (_, rest) => skipGap n (f.state limit rest true simpleKey)
      | none => some ((), f.state limit (place (i + k) l (c + k) cs) keyAllowed simpleKey)
  := by
  have hdrop : (place i l c (spaces k ++ cs)).dropWhile
        (fun g => decide (g.char = ' ') || (!keyAllowed && decide (g.char = '\t')))
      = place (i + k) l (c + k) cs := by
    apply dropWhile_spaces
    · exact fun _ _ _ => rfl
    · simp only [hspace, htab, decide_false, Bool.and_false, Bool.or_false]
  have hfirst : char₀ (place i l c (spaces k ++ cs)) ≠ '\uFEFF' := by
    rw [char₀_place]
    cases k with
    | zero => exact hmark
    | succ k => exact (by decide : ' ' ≠ '\uFEFF')
  rw [skipGap]
  simp only [bind_apply, get_apply, Option.bind_some, Front.rest_state, Front.inFlow_state,
    Front.keyAllowed_state, hfirst, decide_false, Bool.and_false, Bool.false_eq_true, if_false,
    Bool.false_or, Bool.not_false, Bool.or_true]
  rw [hdrop, char₀_place, if_neg hcomment]
  cases lineEnd? (place (i + k) l (c + k) cs) with
  | none => rfl
  | some after => rfl

/-- Spaces in front of a word are passed over. -/
theorem skipGap_spaces {n : Nat} (h : startsWord (cs.headD endMark)) :
  skipGap (n + 1) (f.state limit (place i l c (spaces k ++ cs)) keyAllowed simpleKey)
    = some ((), f.state limit (place (i + k) l (c + k) cs) keyAllowed simpleKey)
  := by
  rw [skipGap_succ (ne_of_startsWord h (by decide)) (ne_of_startsWord h (by decide))
    (ne_of_startsWord h (by decide)) (ne_of_startsWord h (by decide)),
    lineEnd?_place_of_not (isBreak_of_startsWord h)]

/-- The end of a line is passed over with the indentation of the next line, where a key may start.
-/
theorem skipGap_line {n : Nat} (h : startsWord (cs.headD endMark)) :
  skipGap (n + 2) (f.state limit (place i l c ('\n' :: (spaces k ++ cs))) keyAllowed simpleKey)
    = some ((), f.state limit (place (i + 1 + k) (l + 1) k cs) true simpleKey)
  := by
  have hend : ∀ i c, lineEnd? (place i l c ('\n' :: (spaces k ++ cs)))
      = some ('\n', place (i + 1) (l + 1) 0 (spaces k ++ cs)) :=
    fun _ _ => lineEnd?_place (by decide) (by decide)
  have hgap : skipGap (n + 2)
        (f.state limit (place i l c (spaces 0 ++ '\n' :: (spaces k ++ cs))) keyAllowed simpleKey)
      = _ :=
    skipGap_succ (by exact (by decide : '\n' ≠ ' ')) (by exact (by decide : '\n' ≠ '\t'))
      (by exact (by decide : '\n' ≠ '#')) (by exact (by decide : '\n' ≠ '\uFEFF'))
  rw [hend] at hgap
  refine hgap.trans ?_
  have hspaces : skipGap (n + 1) (f.state limit (place (i + 1) (l + 1) 0 (spaces k ++ cs)) true
      simpleKey) = _ := skipGap_spaces h
  rw [Nat.zero_add] at hspaces
  exact hspaces

/-- A key that may have started on a line before the given one, and need not go on. -/
def IsPast (line : Nat) (simpleKey : Option SimpleKey) : Prop :=
  ∀ k ∈ simpleKey, k.required = false ∧ k.place.line < line

/-- Where no key has started, there is none that could go on. -/
theorem isPast_none (line : Nat) :
  IsPast line none
  := fun _ h => by cases h

/-- A key that started on an earlier line, and need not go on, is given up. -/
theorem stillPossible_of_isPast {now : Glyph} (h : IsPast now.line simpleKey) :
  stillPossible now simpleKey = some none
  := by
  cases simpleKey with
  | none => rfl
  | some k =>
    obtain ⟨hrequired, hline⟩ := h k rfl
    simp [stillPossible, SimpleKey.isStale, hrequired, hline]

/-- Giving up a key leaves all else as it is. -/
theorem dropStaleKeys_state {key : Option SimpleKey}
    (h : stillPossible (first (place i l c cs)) simpleKey = some key) :
  dropStaleKeys (f.state limit (place i l c cs) keyAllowed simpleKey)
    = some ((), f.state limit (place i l c cs) keyAllowed key)
  := by
  rw [dropStaleKeys, bind_apply, get_apply, Option.bind_some]
  simp only [Front.rest_state, Front.simpleKey_state, h]
  rfl

/-- Ending blocks adds their end marks and leaves the text as it is. -/
theorem closeBlocks_state (column : Int) (rest : List Glyph) :
  closeBlocks column (f.state limit rest keyAllowed simpleKey)
    = some ((), (f.closed column).state limit rest keyAllowed simpleKey)
  := by
  have hlength : (f.closed column).found.length
      = f.found.length + (closedBlocks column f.indent f.indents).1 := by
    rw [Front.closed, List.length_append, List.length_replicate, Nat.add_comm]
  have hread : closeBlocks column (f.state limit rest keyAllowed simpleKey)
      = some ((), { (f.closed column).state limit rest keyAllowed simpleKey with
        count := f.found.length + (closedBlocks column f.indent f.indents).1 }) := rfl
  rw [hread, ← hlength]
  rfl

/-- Where the gap ends, the key is looked at and then the blocks to the right are ended. -/
theorem approach_of_skipGap {s : State} {key : Option SimpleKey}
    (hgap : skipGap s.limit s = some ((), f.state limit (place i l c cs) keyAllowed simpleKey))
    (hkey : stillPossible (first (place i l c cs)) simpleKey = some key) :
  approach s = some ((), (f.closed c).state limit (place i l c cs) keyAllowed key)
  := by
  have happroach : approach s = (skipGap s.limit s).bind fun p =>
      (dropStaleKeys p.2).bind fun q => closeBlocks (first q.2.rest).column q.2 := rfl
  rw [happroach, hgap, Option.bind_some, dropStaleKeys_state hkey, Option.bind_some,
    Front.rest_state, first_place]
  exact closeBlocks_state c _

/-- A word on the line, behind spaces. -/
theorem approach_spaces {key : Option SimpleKey} (h : startsWord (cs.headD endMark))
    (hkey : stillPossible (first (place (i + k) l (c + k) cs)) simpleKey = some key)
    (hlimit : limit ≠ 0) :
  approach (f.state limit (place i l c (spaces k ++ cs)) keyAllowed simpleKey)
    = some ((), (f.closed (c + k : Nat)).state limit (place (i + k) l (c + k) cs) keyAllowed key)
  := by
  obtain ⟨n, rfl⟩ := Nat.exists_eq_succ_of_ne_zero hlimit
  exact approach_of_skipGap (skipGap_spaces h) hkey

/-- The first word of the next line, where a key may start. -/
theorem approach_line (h : startsWord (cs.headD endMark)) (hkey : IsPast (l + 1) simpleKey)
    (hlimit : 1 < limit) :
  approach (f.state limit (place i l c ('\n' :: (spaces k ++ cs))) keyAllowed simpleKey)
    = some ((), (f.closed k).state limit (place (i + 1 + k) (l + 1) k cs) true none)
  := by
  obtain ⟨n, rfl⟩ : ∃ n, limit = n + 2 := ⟨limit - 2, by omega⟩
  apply approach_of_skipGap (skipGap_line h)
  apply stillPossible_of_isPast
  rwa [first_place]

/-! ### Runs -/

/-- Reading tokens goes on from the second state as from the first, with enough steps left for what
is left of the text. -/
def Leads (s s' : State) : Prop :=
  ∀ n, s.rest.length ≤ n → s.rest.length < s.limit →
    ∃ n', s'.rest.length ≤ n' ∧ s'.rest.length < s'.limit ∧ scanAll n s = scanAll n' s'

namespace Leads

variable {s s' s'' : State}

theorem refl (s : State) :
  Leads s s
  := fun n hn hlimit => ⟨n, hn, hlimit, rfl⟩

theorem trans (h : Leads s s') (h' : Leads s' s'') :
  Leads s s''
  := by
  intro n hn hlimit
  obtain ⟨n', hn', hlimit', heq⟩ := h n hn hlimit
  obtain ⟨n'', hn'', hlimit'', heq'⟩ := h' n' hn' hlimit'
  exact ⟨n'', hn'', hlimit'', heq.trans heq'⟩

/-- The limit need not be looked at where it is too small. -/
theorem of_limit (h : s.rest.length < s.limit → Leads s s') :
  Leads s s'
  := fun n hn hlimit => h hlimit n hn hlimit

end Leads

/-- The tokens depend on the place behind the gap alone. -/
theorem scanAll_congr {s s' : State} (h : approach s = approach s') (n : Nat) :
  scanAll n s = scanAll n s'
  := by
  cases n with
  | zero => rfl
  | succ n =>
    have hrun : ∀ s, scanAll (n + 1) s = (approach s).bind fun p =>
        (scanToken p.2).bind fun q => (if q.1 then scanAll n else pure ()) q.2 := by
      intro s
      rw [scanAll, bind_apply, step, bind_apply]
      cases approach s with
      | none => rfl
      | some p => rfl
    rw [hrun, hrun, h]

section

variable {s s' t u : State}

/-- One step reads the token behind the gap and goes on unless it was the last one. -/
theorem scanAll_token {go : Bool} (happroach : approach s = some ((), t))
    (htoken : scanToken t = some (go, u)) (n : Nat) :
  scanAll (n + 1) s = if go then scanAll n u else some ((), u)
  := by
  rw [scanAll, bind_apply, step, bind_apply, happroach, Option.bind_some, htoken, Option.bind_some]
  cases go with
  | true => rfl
  | false => rfl

/-- A token has been read, and the place after it is the same as one further on. -/
theorem Leads.of_token (happroach : approach s = some ((), t))
    (htoken : scanToken t = some (true, u)) (hsame : approach u = approach s')
    (hlimit : s'.limit = s.limit) (hlength : s'.rest.length < s.rest.length) :
  Leads s s'
  := by
  intro n hn hfits
  obtain ⟨m, rfl⟩ : ∃ m, n = m + 1 := ⟨n - 1, by omega⟩
  refine ⟨m, by omega, by omega, ?_⟩
  rw [scanAll_token happroach htoken, if_pos rfl, scanAll_congr hsame]

/-- Two places with the same place behind their gaps lead to the same tokens. -/
theorem Leads.of_same (hsame : approach s = approach s') (hlimit : s'.limit = s.limit)
    (hlength : s'.rest.length ≤ s.rest.length) :
  Leads s s'
  := fun n hn _ => ⟨n, by omega, by omega, scanAll_congr hsame n⟩

end

end DetachedSchema.Yaml.Token
