import DetachedSchema.Proofs.Yaml.Quoted

/-!
# Reading escapes

Between double quotes a character that is not shown is escaped, by a letter of its own or by its
number in base sixteen, and read from its escape.
-/

namespace DetachedSchema.Yaml.Scalar

open Glyph

variable {i l c : Nat} {x : Char} {cs : List Char}

/-! ### Numbers in base sixteen -/

/-- The value of a digit in base sixteen. -/
def hexValue? (c : Char) : Option Nat :=
  if c.isDigit then some (c.toNat - '0'.toNat)
  else if 'a' ≤ c ∧ c ≤ 'f' then some (c.toNat - 'a'.toNat + 10)
  else if 'A' ≤ c ∧ c ≤ 'F' then some (c.toNat - 'A'.toNat + 10)
  else none

/-- A number with another digit behind it. -/
def pushHexDigit (n : Option Nat) (c : Char) : Option Nat := do
  let n ← n
  let d ← hexValue? c
  return 16 * n + d

/-- The number is made digit by digit, from the highest one on. -/
theorem hexNumber?_eq :
  hexNumber? cs = cs.foldl pushHexDigit (some 0)
  := by
  rw [hexNumber?]
  congr 1
  funext n c
  cases n with
  | none => rfl
  | some n =>
    rw [pushHexDigit, hexValue?]
    split_ifs
    all_goals rfl

/-- A printed digit is pushed with its value, also as a capital letter. -/
theorem pushHexDigit_digitChar (n : Nat) {d : Nat} (hd : d < 16) :
  pushHexDigit (some n) (Nat.digitChar d).toUpper = some (16 * n + d)
  := by
  have hvalue : ∀ d < 16, hexValue? (Nat.digitChar d).toUpper = some d := by decide
  rw [pushHexDigit, hvalue d hd]
  rfl

theorem exists_of_mem_toDigits {n : Nat} (hx : x ∈ Nat.toDigits 16 n) :
  ∃ d < 16, x = Nat.digitChar d
  := by
  induction n using Nat.strongRecOn with
  | ind n ih =>
    rw [Nat.toDigits_eq_if (by decide)] at hx
    split at hx
    next hlt => exact ⟨n, hlt, List.mem_singleton.mp hx⟩
    next hge =>
      obtain hx | hx := List.mem_append.mp hx
      · exact ih (n / 16) (by omega) hx
      · exact ⟨n % 16, Nat.mod_lt _ (by decide), List.mem_singleton.mp hx⟩

/-- The digits of a number, pushed one after the other, make up the number. -/
theorem foldl_toDigits (n : Nat) :
  ((Nat.toDigits 16 n).map Char.toUpper).foldl pushHexDigit (some 0) = some n
  := by
  induction n using Nat.strongRecOn with
  | ind n ih =>
    rw [Nat.toDigits_eq_if (by decide)]
    split
    next hlt => simpa using pushHexDigit_digitChar 0 hlt
    next hge =>
      rw [List.map_append, List.foldl_append, ih (n / 16) (by omega)]
      have hdigit := pushHexDigit_digitChar (n / 16) (Nat.mod_lt n (by decide : 16 > 0))
      rw [Nat.div_add_mod] at hdigit
      exact hdigit

/-- The digits of a number are read as the number. -/
theorem hexNumber?_hexDigits (count n : Nat) :
  hexNumber? (hexDigits count n) = some n
  := by
  have hzeros : ∀ k, (List.replicate k '0').foldl pushHexDigit (some 0) = some 0 := by
    intro k
    induction k with
    | zero => rfl
    | succ k ih => exact ih
  rw [hexNumber?_eq, hexDigits, List.foldl_append, hzeros, foldl_toDigits]

/-- A number that fits into so many digits is printed with just as many. -/
theorem length_hexDigits {count n : Nat} (hcount : 0 < count) (hn : n < 16 ^ count) :
  (hexDigits count n).length = count
  := by
  have hdigits := (Nat.length_toDigits_le_iff (by decide) hcount).mpr hn
  rw [hexDigits, List.length_append, List.length_replicate, List.length_map]
  omega

/-- Digits are shown as themselves. -/
theorem isShown_hexDigits {count n : Nat} (hx : x ∈ hexDigits count n) :
  isShown x ∧ isBreak x = false
  := by
  have hdigit : ∀ d < 16, isShown (Nat.digitChar d).toUpper
      ∧ isBreak (Nat.digitChar d).toUpper = false := by decide
  obtain hx | hx := List.mem_append.mp hx
  · rw [List.eq_of_mem_replicate hx]
    decide
  · obtain ⟨y, hy, rfl⟩ := List.mem_map.mp hx
    obtain ⟨d, hd, rfl⟩ := exists_of_mem_toDigits hy
    exact hdigit d hd

/-! ### Escapes -/

/-- The characters after a backslash are shown on a line and read as the character. -/
structure Escapes (e : List Char) (x : Char) : Prop where
  shown : ∀ y ∈ e, isShown y ∧ isBreak y = false
  ne_nil : e ≠ []
  read : ∀ i l c cs,
    escape? (place i l c (e ++ cs)) = some (x, place (i + size e) l (c + e.length) cs)

/-- An escape by a letter is read as the character that the letter stands for. -/
theorem escapes_simple {y : Char} (hshown : isShown y) (hbreak : isBreak y = false)
    (hwidth : escapeWidth y = none) (hy : simpleEscape y = some x) :
  Escapes [y] x where
  shown := List.forall_mem_singleton.mpr ⟨hshown, hbreak⟩
  ne_nil := List.cons_ne_nil _ _
  read i l c cs := by
    rw [escape?, char₀_place]
    simp only [List.singleton_append, List.headD_cons, hwidth, hy, drop_place hbreak]
    rfl

/-- An escape by a number is read as the character with that number. -/
theorem escapes_number {y : Char} {width : Nat} (hshown : isShown y) (hbreak : isBreak y = false)
    (hwidth : escapeWidth y = some width) (hpos : 0 < width) (hn : x.toNat < 16 ^ width) :
  Escapes (y :: hexDigits width x.toNat) x where
  shown := List.forall_mem_cons.mpr ⟨⟨hshown, hbreak⟩, fun _ => isShown_hexDigits⟩
  ne_nil := List.cons_ne_nil _ _
  read i l c cs := by
    have hlength : (hexDigits width x.toNat).length = width := length_hexDigits hpos hn
    have hdrop : (place i l c (y :: hexDigits width x.toNat ++ cs)).drop 1
        = place (i + y.utf8Size) l (c + 1) (hexDigits width x.toNat ++ cs) := drop_place hbreak
    have htake : chars ((place (i + y.utf8Size) l (c + 1) (hexDigits width x.toNat ++ cs)).take
        width) = hexDigits width x.toNat := by
      rw [chars, List.map_take, ← chars, chars_place, List.append_assoc]
      exact List.take_left' hlength
    have hrest : (place i l c (y :: hexDigits width x.toNat ++ cs)).drop (width + 1)
        = place (i + size (y :: hexDigits width x.toNat)) l
          (c + (y :: hexDigits width x.toNat).length) cs := by
      have hwhole : (y :: hexDigits width x.toNat).length = width + 1 := by
        rw [List.length_cons, hlength]
      rw [← hwhole]
      exact drop_place_append
        (List.forall_mem_cons.mpr ⟨hbreak, fun _ hx => (isShown_hexDigits hx).2⟩)
    have hscalar : ¬ ((0xD800 ≤ x.toNat ∧ x.toNat ≤ 0xDFFF) ∨ x.toNat > 0x10FFFF) := by
      have hvalid := x.valid
      simp only [UInt32.isValidChar, Nat.isValidChar] at hvalid
      simp only [Char.toNat]
      omega
    rw [escape?, char₀_place]
    simp only [List.cons_append, List.headD_cons, hwidth] at hdrop hrest ⊢
    rw [hdrop, htake, hexNumber?_hexDigits, hrest]
    simp only [Option.bind_eq_bind, Option.bind_some, hscalar, if_false, Char.ofNat_toNat]

/-- A character that is not shown, a quote and a backslash are escaped. -/
theorem exists_escapes (h : (isShown x && !isBreak x && x ≠ '"' && x ≠ '\\') = false) :
  ∃ e, doubleQuotedChar x = '\\' :: e ∧ Escapes e x
  := by
  unfold doubleQuotedChar
  rw [if_neg (Bool.eq_false_iff.mp h)]
  split
  case h_15 =>
    split
    next hx => exact ⟨_, rfl, escapes_number rfl rfl rfl (by decide) (by omega)⟩
    split
    next hx => exact ⟨_, rfl, escapes_number rfl rfl rfl (by decide) (by omega)⟩
    next =>
      have hx : x.toNat < 16 ^ 8 := x.val.toNat_lt
      exact ⟨_, rfl, escapes_number rfl rfl rfl (by decide) hx⟩
  all_goals exact ⟨_, rfl, escapes_simple rfl rfl rfl rfl⟩

/-! ### Double quotes -/

/-- Within a word an escape is one character. -/
theorem quotedWord_escape {e : List Char} {limit : Nat} {done : List Char} (he : Escapes e x) :
  quotedWord '"' (limit + 1) done (place i l c ('\\' :: e ++ cs))
    = quotedWord '"' limit (x :: done)
      (place (i + size ('\\' :: e)) l (c + ('\\' :: e).length) cs)
  := by
  have hslash : isBreak '\\' = false := rfl
  have hdrop : (place i l c ('\\' :: e ++ cs)).drop 1
      = place (i + '\\'.utf8Size) l (c + 1) (e ++ cs) := drop_place hslash
  have hline : lineEnd? (place (i + '\\'.utf8Size) l (c + 1) (e ++ cs)) = none := by
    obtain ⟨y, e, rfl⟩ := List.exists_cons_of_ne_nil he.ne_nil
    exact lineEnd?_place_of_not (he.shown y List.mem_cons_self).2
  have hblank : isBlankOrEnd '\\' = false := by decide
  rw [quotedWord, char₀_place, hdrop, hline]
  simp only [List.cons_append, List.headD_cons, hblank, Bool.false_eq_true, if_false, Char.reduceEq,
    false_and, true_and, if_true, he.read, Option.bind_eq_bind, Option.bind_some, size_cons,
    List.length_cons, Nat.add_assoc, Nat.add_comm 1]

/-- Within a word a character that needs no escape stands for itself. -/
theorem quotedWord_shown {limit : Nat} {done : List Char} (hx : isBlankOrEnd x = false)
    (hquote : x ≠ '"') (hslash : x ≠ '\\') :
  quotedWord '"' (limit + 1) done (place i l c (x :: cs))
    = quotedWord '"' limit (x :: done) (place (i + x.utf8Size) l (c + 1) cs)
  := by
  rw [quotedWord, drop_place (isBreak_of_isBlankOrEnd hx)]
  simp only [char₀_place, List.headD_cons, hx, Bool.false_eq_true, if_false, Char.reduceEq,
    false_and, hquote, hslash, and_false]

/-- However a character is printed between double quotes, it is read as itself there. -/
theorem readsAs_doubleQuotedChar (hx : x ≠ ' ') :
  ReadsAs '"' doubleQuotedChar x
  := by
  intro limit done i l c cs
  cases h : isShown x && !isBreak x && x ≠ '"' && x ≠ '\\' with
  | false =>
    obtain ⟨e, hchar, he⟩ := exists_escapes h
    rw [hchar]
    exact quotedWord_escape he
  | true =>
    have hchar : doubleQuotedChar x = [x] := by
      unfold doubleQuotedChar
      exact if_pos h
    simp only [Bool.and_eq_true, Bool.not_eq_true', decide_eq_true_eq] at h
    obtain ⟨⟨⟨hshown, hbreak⟩, hquote⟩, hslash⟩ := h
    have hblank : isBlankOrEnd x = false := by
      rw [isBlankOrEnd_eq hshown, hbreak, decide_eq_false hx]
      rfl
    rw [hchar]
    exact quotedWord_shown hblank hquote hslash

theorem doubleQuotedChar_ne_nil (x : Char) :
  doubleQuotedChar x ≠ []
  := by
  unfold doubleQuotedChar
  split
  · exact List.cons_ne_nil _ _
  · exact List.cons_ne_nil _ _

/-- What a character is printed as starts a word, unless the character is a space. -/
theorem isBlankOrEnd_doubleQuotedChar (hx : x ≠ ' ') :
  isBlankOrEnd ((doubleQuotedChar x ++ cs).headD endMark) = false
  := by
  cases h : isShown x && !isBreak x && x ≠ '"' && x ≠ '\\' with
  | false =>
    obtain ⟨e, hchar, -⟩ := exists_escapes h
    rw [hchar]
    exact (by decide : isBlankOrEnd '\\' = false)
  | true =>
    have hchar : doubleQuotedChar x = [x] := by
      unfold doubleQuotedChar
      exact if_pos h
    simp only [Bool.and_eq_true, Bool.not_eq_true'] at h
    rw [hchar, List.singleton_append, List.headD_cons, isBlankOrEnd_eq h.1.1.1, h.1.1.2,
      decide_eq_false hx]
    rfl

/-- Behind spaces a text in double quotes goes on with a word or ends. -/
theorem isBlankOrEnd_doubleQuoted {rest : List Char} (hcs : ∀ x ∈ cs.head?, x ≠ ' ') :
  isBlankOrEnd ((cs.flatMap doubleQuotedChar ++ '"' :: rest).headD endMark) = false
  := by
  cases cs with
  | nil => exact (by decide : isBlankOrEnd '"' = false)
  | cons x cs =>
    rw [List.flatMap_cons, List.append_assoc]
    exact isBlankOrEnd_doubleQuotedChar (hcs x rfl)

/-- A text in double quotes is not over before its closing quote. -/
theorem doubleQuoted_ne_endMark {rest : List Char} :
  (cs.flatMap doubleQuotedChar ++ '"' :: rest).headD endMark ≠ endMark
  := by
  by_cases hcs : ∀ x ∈ cs.head?, x ≠ ' '
  · intro heq
    have hblank : isBlankOrEnd ((cs.flatMap doubleQuotedChar ++ '"' :: rest).headD endMark)
        = false := isBlankOrEnd_doubleQuoted hcs
    rw [heq] at hblank
    cases hblank
  · obtain ⟨x, hx, rfl⟩ : ∃ x ∈ cs.head?, x = ' ' := by simpa using hcs
    obtain ⟨cs, rfl⟩ := List.head?_eq_some_iff.mp hx
    exact (by decide : ' ' ≠ endMark)

/-- A text in double quotes is read as the text. -/
theorem quoted_doubleQuoted {limit : Nat} {done rest : List Char} (hc : c ≠ 0)
    (hlimit : (cs.flatMap doubleQuotedChar).length + 2 ≤ limit) (hrest : rest.headD endMark ≠ '"') :
  ∃ i' c', quoted '"' limit done (place i l c (cs.flatMap doubleQuotedChar ++ '"' :: rest))
    = some (done.reverse ++ cs, place i' l c' rest)
  := by
  -- Spaces are not escaped, so the text is read word by word with the spaces between.
  induction hlength : cs.length using Nat.strongRecOn generalizing cs i c limit done with
  | ind length ih =>
    obtain ⟨limit, rfl⟩ : ∃ n, limit = n + 1 := ⟨limit - 1, by omega⟩
    have hquote : isBlankOrEnd '"' = false := by decide
    have hend : (cs.flatMap doubleQuotedChar ++ '"' :: rest).headD endMark ≠ endMark :=
      doubleQuoted_ne_endMark
    obtain hword | ⟨word, gap, more, rfl, hword, hgap, hspaces, hmore⟩ := exists_gap (· = ' ') cs
    · have hreads : ∀ x ∈ cs, ReadsAs '"' doubleQuotedChar x :=
        fun x hx => readsAs_doubleQuotedChar (by simpa using hword x hx)
      have hlength := length_le_flatMap doubleQuotedChar_ne_nil cs
      exact quoted_word_end i l limit done hquote hreads hc hend hrest (by omega)
    · obtain ⟨count, rfl⟩ := exists_spaces hgap (by simpa using hspaces)
      have hreads : ∀ x ∈ word, ReadsAs '"' doubleQuotedChar x :=
        fun x hx => readsAs_doubleQuotedChar (by simpa using hword x hx)
      have hwordLength := length_le_flatMap doubleQuotedChar_ne_nil word
      rw [List.flatMap_append, List.flatMap_append, flatMap_spaces rfl] at hend hlimit ⊢
      rw [List.length_append, List.length_append, length_spaces] at hlength hlimit
      rw [List.append_assoc, List.append_assoc] at hend ⊢
      obtain ⟨i', c', hc', heq⟩ := quoted_word_spaces i l limit done hquote hreads hc hend
        (isBlankOrEnd_doubleQuoted (by simpa using hmore)) (by omega)
      have hrec : ∃ i'' c'', quoted '"' limit (spaces (count + 1) ++ (word.reverse ++ done))
            (place i' l c' (more.flatMap doubleQuotedChar ++ '"' :: rest))
          = some ((spaces (count + 1) ++ (word.reverse ++ done)).reverse ++ more,
            place i'' l c'' rest) := ih more.length (by omega) hc' (by omega) rfl
      obtain ⟨i'', c'', hrec⟩ := hrec
      refine ⟨i'', c'', ?_⟩
      rw [heq, hrec]
      simp [spaces]

end DetachedSchema.Yaml.Scalar
