import DetachedSchema.Proofs.Yaml.Lines
import DetachedSchema.Proofs.Yaml.Names

/-!
# The tokens of trees

What the reader finds in a tree that has been printed: the tokens of the tree, whatever stands in
front of it and behind it.
-/

namespace DetachedSchema

/-! ### Tokens -/

mutual

/-- The tokens that a tree is printed for.  The list of a member is not indented, so that no tokens
show where it starts and ends. -/
def Tree.tokens (unindented : Bool) : Tree → List Yaml.Token
  | .null => [.scalar .plain "null"]
  | .bool b => [.scalar .plain (if b then "true" else "false")]
  | .number n => [.scalar .plain (toString n)]
  | .text s => [.scalar (Yaml.Scalar.styleOf s.toList) s]
  | .list [] => [.flowListStart, .flowListEnd]
  | .list (t :: ts) =>
    if unindented then itemTokens (t :: ts)
    else .blockListStart :: itemTokens (t :: ts) ++ [.blockEnd]
  | .record [] => [.flowMapStart, .flowMapEnd]
  | .record (m :: ms) => .blockMapStart :: memberTokens (m :: ms) ++ [.blockEnd]

/-- The tokens of the items of a list. -/
def Tree.itemTokens : List Tree → List Yaml.Token
  | [] => []
  | t :: ts => .blockEntry :: t.tokens false ++ itemTokens ts

/-- The tokens of the members of a record. -/
def Tree.memberTokens : List (String × Tree) → List Yaml.Token
  | [] => []
  | (name, t) :: ms => .key :: .scalar .plain name :: .value :: t.tokens true ++ memberTokens ms

end

/-- Whether the tree is printed on one line or as a block of text. -/
def Tree.isLeaf : Tree → Bool
  | .list (_ :: _) | .record (_ :: _) => false
  | _ => true

namespace Yaml

open Glyph Scalar Token

/-! ### Leaves -/

variable {t : Tree}

theorem afterDash_leaf (h : t.isLeaf) (column : Nat) :
  afterDash column t = line column t
  := by
  cases t with
  | null | bool | number | text => rfl
  | list ts =>
    cases ts with
    | nil => rfl
    | cons t ts => cases h
  | record ms =>
    cases ms with
    | nil => rfl
    | cons m ms => cases h

/-- Behind a colon a leaf stands on the line of its name. -/
theorem afterColon_leaf (h : t.isLeaf) (column : Nat) :
  afterColon column t = ' ' :: line (column + 2) t
  := by
  cases t with
  | null | bool | number | text => rfl
  | list ts =>
    cases ts with
    | nil => rfl
    | cons t ts => cases h
  | record ms =>
    cases ms with
    | nil => rfl
    | cons m ms => cases h

section

variable {f : Front} {limit i l c k column : Nat} {more : List Char} {keyAllowed unindented : Bool}

/-- A text is read as one token, whatever style it is written in. -/
theorem leads_text (s : String) (i l : Nat) (hmore : StartsLine k more) (hf : f.indent = column)
    (hc : column < c) (hk : k ≤ column) :
  ∃ i' l', Leads
    (f.state limit (place i l c (Scalar.line (column + 2) s.toList ++ more)) keyAllowed none)
    ((f.push [.scalar (styleOf s.toList) s]).lines limit i' l' more)
  := by
  -- The style that was chosen can hold the text, so it is read as what is printed in that style.
  have hholds := holds_styleOf s.toList
  rw [Scalar.line]
  cases hstyle : styleOf s.toList with
  | plain =>
    rw [hstyle] at hholds
    have hplain : ∃ i' l', Leads
        (f.state limit (place i l c (s.toList ++ '\n' :: more)) keyAllowed none) _ :=
      leads_plain i l hmore hf hc hk hholds
    simpa using hplain
  | singleQuoted =>
    rw [hstyle] at hholds
    have hquoted : ∃ i' l', Leads (f.state limit
        (place i l c ('\'' :: (singleQuoted (column + 2) false s.toList ++ '\'' :: '\n' :: more)))
        keyAllowed none) _ :=
      leads_quoted i l hmore hf hc (.inl ⟨rfl, rfl⟩) fun hlimit =>
        quoted_singleQuoted hholds (Nat.succ_ne_zero _) (by exact (by decide : '\n' ≠ '\''))
          (i + 1) l [] (Nat.succ_ne_zero c) hlimit
    simpa using hquoted
  | doubleQuoted =>
    have hread : (s.toList.flatMap doubleQuotedChar).length + 2 ≤ limit → ∃ i' c',
          quoted '"' limit [] (place (i + 1) l (c + 1)
            (s.toList.flatMap doubleQuotedChar ++ '"' :: '\n' :: more))
        = some ([].reverse ++ s.toList, place i' l c' ('\n' :: more)) := fun hlimit =>
      quoted_doubleQuoted (Nat.succ_ne_zero c) hlimit (by exact (by decide : '\n' ≠ '"'))
    have hquoted : ∃ i' l', Leads (f.state limit
        (place i l c ('"' :: (s.toList.flatMap doubleQuotedChar ++ '"' :: '\n' :: more)))
        keyAllowed none) _ :=
      leads_quoted i l hmore hf hc (.inr ⟨rfl, rfl⟩) fun hlimit =>
        have ⟨i', c', hread⟩ := hread hlimit
        ⟨i', l, c', Nat.le_refl l, hread⟩
    simpa using hquoted
  | literal =>
    rw [hstyle] at hholds
    have hblock : ∃ i' l', Leads (f.state limit (place i l c ('|' :: (blockHints s.toList ++ '\n' ::
        (indented (column + 2) true s.toList ++ more)))) keyAllowed none) _ :=
      leads_block i l hmore hf hc hk hholds.1 hholds.2
    simpa using hblock
  | folded =>
    rw [hstyle] at hholds
    cases hholds

/-- A leaf is read as its tokens, up to the next line. -/
theorem leads_line (i l : Nat) (h : t.isLeaf) (hmore : StartsLine k more) (hf : f.indent = column)
    (hc : column < c) (hk : k ≤ column) :
  ∃ i' l', Leads (f.state limit (place i l c (line (column + 2) t ++ more)) keyAllowed none)
    ((f.push (t.tokens unindented)).lines limit i' l' more)
  := by
  have hplain : ∀ cs : List Char, fitsPlain cs → ∃ i' l', Leads
      (f.state limit (place i l c (cs ++ '\n' :: more)) keyAllowed none)
      ((f.push [.scalar .plain (String.ofList cs)]).lines limit i' l' more) :=
    fun cs hcs => leads_plain i l hmore hf hc hk hcs
  cases t with
  | null => exact hplain "null".toList (by decide)
  | bool b =>
    cases b with
    | true => exact hplain "true".toList (by decide)
    | false => exact hplain "false".toList (by decide)
  | number n =>
    have hnumber := hplain _ (fitsPlain_number n)
    rw [String.ofList_toList] at hnumber
    rw [line, List.append_assoc]
    exact hnumber
  | text s => exact leads_text s i l hmore hf hc hk
  | list ts =>
    cases ts with
    | nil => exact leads_brackets i l hmore hf hc (.inl ⟨rfl, rfl⟩) (.inl ⟨rfl, rfl⟩)
    | cons t ts => cases h
  | record ms =>
    cases ms with
    | nil => exact leads_brackets i l hmore hf hc (.inr ⟨rfl, rfl⟩) (.inr ⟨rfl, rfl⟩)
    | cons m ms => cases h

theorem startsWord_of_fitsPlain {cs : List Char} (h : fitsPlain cs) (more : List Char) :
  startsWord ((cs ++ more).headD endMark)
  := by
  have hplain := isPlain_of_fitsPlain h
  obtain ⟨x, cs, rfl⟩ := List.exists_cons_of_ne_nil hplain.ne_nil
  obtain ⟨hspace, hcomment⟩ := hplain.head x rfl
  exact startsWord_of_isShown (hplain.shown x List.mem_cons_self) hspace hcomment
    (hplain.unbroken x List.mem_cons_self)

/-- A leaf starts with a word. -/
theorem startsWord_line (h : t.isLeaf) (indent : Nat) (more : List Char) :
  startsWord ((line indent t ++ more).headD endMark)
  := by
  cases t with
  | null => rfl
  | bool b =>
    cases b with
    | true => rfl
    | false => rfl
  | number n =>
    rw [line, List.append_assoc]
    exact startsWord_of_fitsPlain (fitsPlain_number n) _
  | text s =>
    have hholds := holds_styleOf s.toList
    rw [line, Scalar.line]
    cases hstyle : styleOf s.toList with
    | plain =>
      rw [hstyle] at hholds
      rw [List.append_assoc]
      exact startsWord_of_fitsPlain hholds _
    | singleQuoted => rfl
    | doubleQuoted => rfl
    | literal => rfl
    | folded => rfl
  | list ts => rfl
  | record ms => rfl

/-! ### Items and members -/

theorem startsWord_name {name : String} (hname : IsName name) (cs : List Char) :
  startsWord ((name.toList ++ cs).headD endMark)
  := by
  obtain ⟨x, xs, hxs⟩ := List.exists_cons_of_ne_nil hname.ne_nil
  rw [hxs]
  exact startsWord_of_isLetter (hname.letters x (by rw [hxs]; exact List.mem_cons_self))

/-- What stands behind the dash of an item. -/
theorem startsWord_afterDash (h : t.HasNames) (column : Nat) (more : List Char) :
  startsWord ((afterDash column t ++ more).headD endMark)
  := by
  cases t with
  | list ts =>
    cases ts with
    | nil => exact startsWord_line rfl _ _
    | cons t ts => exact (by decide : startsWord '-')
  | record ms =>
    cases ms with
    | nil => exact startsWord_line rfl _ _
    | cons m ms =>
      obtain ⟨name, t⟩ := m
      rw [afterDash, List.append_assoc, List.append_assoc]
      exact startsWord_name h.1 _
  | null | bool | number | text => exact startsWord_line rfl _ _

end

/-- The tree is read behind the colon of a member in a column. -/
def ReadsAfterColon (t : Tree) : Prop :=
  ∀ ⦃f : Front⦄ ⦃limit i l c k column : Nat⦄ ⦃more : List Char⦄, f.indent = column → column < c →
    k ≤ column → StartsLine k more →
    ∃ i' l', Leads (f.state limit (place i l c (afterColon column t ++ more)) false none)
      ((f.push (t.tokens true)).lines limit i' l' more)

/-- The tree is read behind the dash of an item in a column. -/
def ReadsAfterDash (t : Tree) : Prop :=
  ∀ ⦃f : Front⦄ ⦃limit i l k column : Nat⦄ ⦃more : List Char⦄, f.indent = column →
    k ≤ column → StartsLine k more →
    ∃ i' l', Leads
      (f.state limit (place i l (column + 2) (afterDash (column + 2) t ++ more)) true none)
      ((f.push (t.tokens false)).lines limit i' l' more)

/-- Items are read in a column where a list has been started. -/
def ReadsItems (ts : List Tree) : Prop :=
  ∀ ⦃f : Front⦄ ⦃limit i l k column : Nat⦄ ⦃more : List Char⦄, f.indent = column →
    k ≤ column → StartsLine k more →
    ∃ i' l', Leads (f.lines limit i l (itemsAt column ts ++ more))
      ((f.push (Tree.itemTokens ts)).lines limit i' l' more)

/-- Members are read in a column where a record has been started. -/
def ReadsMembers (ms : List (String × Tree)) : Prop :=
  ∀ ⦃f : Front⦄ ⦃limit i l k column : Nat⦄ ⦃more : List Char⦄, f.indent = column →
    k ≤ column → StartsLine k more →
    ∃ i' l', Leads (f.lines limit i l (membersAt column ms ++ more))
      ((f.push (Tree.memberTokens ms)).lines limit i' l' more)

section

variable {f : Front} {limit i l k column : Nat} {more : List Char}

/-- The items of a list are lines that start with a dash. -/
theorem itemsAt_append (column : Nat) (t : Tree) (ts : List Tree) (more : List Char) :
  itemsAt column (t :: ts) ++ more
    = spaces column ++ ('-' :: ' ' :: (afterDash (column + 2) t ++ (itemsAt column ts ++ more)))
  := by simp [itemsAt]

/-- The members of a record are lines that start with a name and a colon. -/
theorem membersAt_append (column : Nat) (name : String) (t : Tree) (ms : List (String × Tree))
    (more : List Char) :
  membersAt column ((name, t) :: ms) ++ more
    = spaces column
      ++ (name.toList ++ ':' :: (afterColon column t ++ (membersAt column ms ++ more)))
  := by simp [membersAt]

/-- Items stand on lines of their own, and so does what is behind them. -/
theorem startsLine_itemsAt (ts : List Tree) (hmore : StartsLine k more) (hk : k ≤ column) :
  ∃ k', k' ≤ column ∧ StartsLine k' (itemsAt column ts ++ more)
  := by
  cases ts with
  | nil => exact ⟨k, hk, hmore⟩
  | cons t ts =>
    exact ⟨column, Nat.le_refl _, _, itemsAt_append column t ts more,
      (by decide : startsWord '-')⟩

/-- Members stand on lines of their own, and so does what is behind them. -/
theorem startsLine_membersAt {ms : List (String × Tree)} (hms : Tree.membersHaveNames ms)
    (hmore : StartsLine k more) (hk : k ≤ column) :
  ∃ k', k' ≤ column ∧ StartsLine k' (membersAt column ms ++ more)
  := by
  cases ms with
  | nil => exact ⟨k, hk, hmore⟩
  | cons m ms =>
    obtain ⟨name, t⟩ := m
    exact ⟨column, Nat.le_refl _, _, membersAt_append column name t ms more,
      startsWord_name hms.1 _⟩

/-- An item and those after it, where the dash stands. -/
theorem leads_item {ts : List Tree} (ht : ReadsAfterDash t) (hts : ReadsItems ts)
    (hnames : t.HasNames) (i l : Nat) (hindent : f.indent ≤ column) (hk : k ≤ column)
    (hmore : StartsLine k more) :
  ∃ i' l', Leads
    (f.state limit (place i l column
      ('-' :: ' ' :: (afterDash (column + 2) t ++ (itemsAt column ts ++ more)))) true none)
    (((f.opening column .blockListStart).push (Tree.itemTokens (t :: ts))).lines limit i' l' more)
  := by
  obtain ⟨k', hk', hitems⟩ := startsLine_itemsAt ts hmore hk
  have hopening : (f.opening column .blockListStart).indent = column := indent_opening hindent
  obtain ⟨i₁, l₁, hvalue⟩ : ∃ i₁ l₁, Leads
      (((f.opening column .blockListStart).push [.blockEntry]).state limit (place (i + 2) l
        (column + 2) (afterDash (column + 2) t ++ (itemsAt column ts ++ more))) true none) _ :=
    ht hopening hk' hitems
  obtain ⟨i₂, l₂, hrest⟩ : ∃ i₂ l₂, Leads
      ((((f.opening column .blockListStart).push [.blockEntry]).push (t.tokens false)).lines limit
        i₁ l₁ (itemsAt column ts ++ more)) _ :=
    hts hopening hk hmore
  refine ⟨i₂, l₂, (leads_dash i l (startsWord_afterDash hnames _ _) hindent).trans
    (hvalue.trans ?_)⟩
  simpa [Tree.itemTokens] using hrest

/-- A colon has the end of the line or a space behind it. -/
theorem exists_afterColon (column : Nat) (t : Tree) :
  ∃ y cs, afterColon column t = y :: cs ∧ isBlankOrEnd y
  := by
  cases hleaf : t.isLeaf with
  | true => exact ⟨' ', _, afterColon_leaf hleaf column, by decide⟩
  | false =>
    cases t with
    | null | bool | number | text => cases hleaf
    | list ts =>
      cases ts with
      | nil => cases hleaf
      | cons t ts => exact ⟨'\n', _, rfl, by decide⟩
    | record ms =>
      cases ms with
      | nil => cases hleaf
      | cons m ms => exact ⟨'\n', _, rfl, by decide⟩

/-- A member and those after it, where the name stands. -/
theorem leads_member {name : String} {ms : List (String × Tree)} (ht : ReadsAfterColon t)
    (hms : ReadsMembers ms) (hname : IsName name) (hnames : Tree.membersHaveNames ms) (i l : Nat)
    (hindent : f.indent ≤ column) (hk : k ≤ column) (hmore : StartsLine k more) :
  ∃ i' l', Leads
    (f.state limit (place i l column
      (name.toList ++ ':' :: (afterColon column t ++ (membersAt column ms ++ more)))) true none)
    (((f.opening column .blockMapStart).push (Tree.memberTokens ((name, t) :: ms))).lines limit
      i' l' more)
  := by
  obtain ⟨k', hk', hmembers⟩ := startsLine_membersAt hnames hmore hk
  have hopening : (f.opening column .blockMapStart).indent = column := indent_opening hindent
  obtain ⟨y, cs, hcolon, hy⟩ := exists_afterColon column t
  obtain ⟨i₁, c₁, hc, hkey⟩ : ∃ i₁ c₁, column < c₁ ∧ Leads (f.state limit (place i l column
        (name.toList ++ ':' :: (afterColon column t ++ (membersAt column ms ++ more)))) true none)
      (((f.opening column .blockMapStart).push [.key, .scalar .plain name, .value]).state limit
        (place i₁ l c₁ (afterColon column t ++ (membersAt column ms ++ more))) false none) := by
    rw [hcolon]
    exact leads_name hname hy i l _ hindent
  obtain ⟨i₂, l₂, hvalue⟩ : ∃ i₂ l₂, Leads
      (((f.opening column .blockMapStart).push [.key, .scalar .plain name, .value]).state limit
        (place i₁ l c₁ (afterColon column t ++ (membersAt column ms ++ more))) false none) _ :=
    ht hopening hc hk' hmembers
  obtain ⟨i₃, l₃, hrest⟩ : ∃ i₃ l₃, Leads
      ((((f.opening column .blockMapStart).push [.key, .scalar .plain name, .value]).push
        (t.tokens true)).lines limit i₂ l₂ (membersAt column ms ++ more)) _ :=
    hms hopening hk hmore
  refine ⟨i₃, l₃, hkey.trans (hvalue.trans ?_)⟩
  simpa [Tree.memberTokens] using hrest

end

/-! ### Trees -/

theorem readsItems_nil :
  ReadsItems []
  := fun _ _ i l _ _ _ _ _ _ => ⟨i, l, Leads.refl _⟩

/-- Items are read when the first one is and those behind it are. -/
theorem readsItems_cons {ts : List Tree} (ht : ReadsAfterDash t) (hts : ReadsItems ts)
    (hnames : t.HasNames) :
  ReadsItems (t :: ts)
  := by
  intro f limit i l k column more hf hk hmore
  obtain ⟨i', l', hitem⟩ : ∃ i' l', Leads
      (f.state limit (place (i + column) l column _) true none) _ :=
    leads_item ht hts hnames (i + column) l (Int.le_of_eq hf) hk hmore
  rw [opening_eq hf] at hitem
  rw [itemsAt_append]
  exact ⟨i', l', (leads_lines (by exact (by decide : startsWord '-'))).trans hitem⟩

theorem readsMembers_nil :
  ReadsMembers []
  := fun _ _ i l _ _ _ _ _ _ => ⟨i, l, Leads.refl _⟩

/-- Members are read when the value of the first one is and those behind it are. -/
theorem readsMembers_cons {name : String} {ms : List (String × Tree)} (ht : ReadsAfterColon t)
    (hms : ReadsMembers ms) (hname : IsName name) (hnames : Tree.membersHaveNames ms) :
  ReadsMembers ((name, t) :: ms)
  := by
  intro f limit i l k column more hf hk hmore
  obtain ⟨i', l', hmember⟩ : ∃ i' l', Leads
      (f.state limit (place (i + column) l column _) true none) _ :=
    leads_member ht hms hname hnames (i + column) l (Int.le_of_eq hf) hk hmore
  rw [opening_eq hf] at hmember
  rw [membersAt_append]
  exact ⟨i', l', (leads_lines (startsWord_name hname _)).trans hmember⟩

/-- A leaf is read as an item. -/
theorem readsAfterDash_leaf (h : t.isLeaf) :
  ReadsAfterDash t
  := by
  intro f limit i l k column more hf hk hmore
  rw [afterDash_leaf h]
  exact leads_line i l h hmore hf (by omega) hk

/-- A leaf is read as the value of a member. -/
theorem readsAfterColon_leaf (h : t.isLeaf) :
  ReadsAfterColon t
  := by
  intro f limit i l c k column more hf hc hk hmore
  obtain ⟨i', l', hline⟩ : ∃ i' l', Leads
      (f.state limit (place (i + 1) l (c + 1) (line (column + 2) t ++ more)) false none)
      ((f.push (t.tokens true)).lines limit i' l' more) :=
    leads_line (i + 1) l h hmore hf (by omega) hk
  rw [afterColon_leaf h, List.cons_append]
  exact ⟨i', l', (leads_space (startsWord_line h _ _)).trans hline⟩

/-- The list of a member starts on the line after the name, in the column of the name. -/
theorem readsAfterColon_list {ts : List Tree} (h : ReadsItems (t :: ts)) :
  ReadsAfterColon (.list (t :: ts))
  := by
  intro f limit i l c k column more hf hc hk hmore
  obtain ⟨k', -, hitems⟩ := startsLine_itemsAt (t :: ts) hmore hk
  obtain ⟨i', l', hlist⟩ : ∃ i' l', Leads
      (f.lines limit (i + 1) (l + 1) (itemsAt column (t :: ts) ++ more)) _ := h hf hk hmore
  exact ⟨i', l', (leads_nextLine i l hitems).trans hlist⟩

/-- A list in a list starts behind the dash of the outer one. -/
theorem readsAfterDash_list {ts : List Tree} (ht : ReadsAfterDash t) (hts : ReadsItems ts)
    (hnames : t.HasNames) :
  ReadsAfterDash (.list (t :: ts))
  := by
  intro f limit i l k column more hf hk hmore
  obtain ⟨i', l', hitem⟩ : ∃ i' l', Leads
      (f.state limit (place i l (column + 2) _) true none) _ :=
    leads_item ht hts hnames i l (by omega) (by omega) hmore
  have hclosed := hitem.closed (by omega) hmore (by omega)
  refine ⟨i', l', ?_⟩
  simpa [afterDash, Tree.tokens] using hclosed

section

variable {name : String} {ms : List (String × Tree)} (ht : ReadsAfterColon t)
  (hms : ReadsMembers ms) (hname : IsName name) (hnames : Tree.membersHaveNames ms)

include ht hms hname hnames

/-- A record in a list starts behind the dash. -/
theorem readsAfterDash_record :
  ReadsAfterDash (.record ((name, t) :: ms))
  := by
  intro f limit i l k column more hf hk hmore
  obtain ⟨i', l', hmember⟩ : ∃ i' l', Leads
      (f.state limit (place i l (column + 2) _) true none) _ :=
    leads_member ht hms hname hnames i l (by omega) (by omega) hmore
  have hclosed := hmember.closed (by omega) hmore (by omega)
  refine ⟨i', l', ?_⟩
  simpa [afterDash, Tree.tokens] using hclosed

/-- The record of a member starts on the line after the name, indented by two. -/
theorem readsAfterColon_record :
  ReadsAfterColon (.record ((name, t) :: ms))
  := by
  intro f limit i l c k column more hf hc hk hmore
  have hstart : StartsLine (column + 2) (membersAt (column + 2) ((name, t) :: ms) ++ more) :=
    ⟨_, membersAt_append _ name t ms more, startsWord_name hname _⟩
  obtain ⟨i', l', hmember⟩ : ∃ i' l', Leads
      (f.state limit (place (i + 1 + (column + 2)) (l + 1) (column + 2) _) true none) _ :=
    leads_member ht hms hname hnames _ _ (by omega) (by omega) hmore
  have hclosed := hmember.closed (by omega) hmore (by omega)
  refine ⟨i', l', (leads_nextLine i l hstart).trans ?_⟩
  rw [membersAt_append]
  exact (leads_lines (startsWord_name hname _)).trans hclosed

end

mutual

/-- A tree is read behind the name of a member. -/
theorem readsAfterColon (t : Tree) (h : t.HasNames) :
  ReadsAfterColon t
  := by
  -- The recursion is that of the printer, which writes what is empty on the line.
  cases t with
  | null | bool | number | text => exact readsAfterColon_leaf rfl
  | list ts =>
    cases ts with
    | nil => exact readsAfterColon_leaf rfl
    | cons t ts => exact readsAfterColon_list (readsItems (t :: ts) h)
  | record ms =>
    cases ms with
    | nil => exact readsAfterColon_leaf rfl
    | cons m ms =>
      obtain ⟨name, t⟩ := m
      exact readsAfterColon_record (readsAfterColon t h.2.1) (readsMembers ms h.2.2) h.1 h.2.2

/-- A tree is read as an item. -/
theorem readsAfterDash (t : Tree) (h : t.HasNames) :
  ReadsAfterDash t
  := by
  cases t with
  | null | bool | number | text => exact readsAfterDash_leaf rfl
  | list ts =>
    cases ts with
    | nil => exact readsAfterDash_leaf rfl
    | cons t ts => exact readsAfterDash_list (readsAfterDash t h.1) (readsItems ts h.2) h.1
  | record ms =>
    cases ms with
    | nil => exact readsAfterDash_leaf rfl
    | cons m ms =>
      obtain ⟨name, t⟩ := m
      exact readsAfterDash_record (readsAfterColon t h.2.1) (readsMembers ms h.2.2) h.1 h.2.2

/-- Items are read one after the other. -/
theorem readsItems (ts : List Tree) (h : Tree.itemsHaveNames ts) :
  ReadsItems ts
  := by
  cases ts with
  | nil => exact readsItems_nil
  | cons t ts => exact readsItems_cons (readsAfterDash t h.1) (readsItems ts h.2) h.1

/-- Members are read one after the other. -/
theorem readsMembers (ms : List (String × Tree)) (h : Tree.membersHaveNames ms) :
  ReadsMembers ms
  := by
  cases ms with
  | nil => exact readsMembers_nil
  | cons m ms =>
    obtain ⟨name, t⟩ := m
    exact readsMembers_cons (readsAfterColon t h.2.1) (readsMembers ms h.2.2) h.1 h.2.2

end

end Yaml

end DetachedSchema
