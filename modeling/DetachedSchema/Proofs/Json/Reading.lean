import DetachedSchema.Proofs.Except
import DetachedSchema.Proofs.Json.Spacing

/-!
# Reading what was printed

Every part of a printed text is read as what it was printed for: the escapes of a text, the digits
of a number, the items of a list.  A reader takes its part and leaves the rest as it is.
-/

namespace DetachedSchema.Json.Reader

variable {α β σ : Type}

/-- The reader takes `cs` from the front of a text for `a`, with or without gaps before it, when
what follows may stand behind a value. -/
def Reads (r : Reader α) (cs : List Char) (a : α) : Prop :=
  ∀ gap rest, gap.all isGap → Spacing.isEnd rest → r (gap ++ (cs ++ rest)) = .ok (a, rest)

/-! ### Steps of a reader -/

/-- What is made of a value is read where the value is. -/
theorem Reads.map {r : Reader α} {cs : List Char} {a : α} (h : Reads r cs a) (f : α → β) :
  Reads (f <$> r) cs (f a)
  := fun gap rest hgap hrest => map_of_ok (h gap rest hgap hrest)

theorem Reads.of_eq {r : Reader α} {cs : List Char} {a b : α} (h : Reads r cs a) (hab : a = b) :
  Reads r cs b
  := hab ▸ h

/-- Gaps before a token are passed over. -/
theorem peek_gap {gap : List Char} {c : Char} {cs : List Char} (hgap : gap.all isGap)
    (hc : ¬ isGap c) :
  peek (gap ++ c :: cs) = .ok (some c, c :: cs)
  := by
  have hdrop : (gap ++ c :: cs).dropWhile isGap = c :: cs := by
    rw [List.dropWhile_append_of_pos (List.all_eq_true.mp hgap), List.dropWhile_cons_of_neg hc]
  rw [peek, hdrop]
  rfl

theorem peek_cons {c : Char} {cs : List Char} (hc : ¬ isGap c) :
  peek (c :: cs) = .ok (some c, c :: cs)
  := by
  have hgap : ([] : List Char).all isGap := rfl
  exact peek_gap hgap hc

theorem take_cons {c : Char} {cs : List Char} :
  take (c :: cs) = .ok ((), cs)
  := rfl

/-- A word is taken as it was printed. -/
theorem word_append (ws rest : List Char) :
  word ws (ws ++ rest) = .ok ((), rest)
  := by
  induction ws with
  | nil => rfl
  | cons w ws ih =>
    rw [List.cons_append, word]
    simp only [if_true, ih]

/-- A loop goes on with the state that a step leaves, with one step less to go. -/
theorem loopWithin_next {step : σ → Reader (σ ⊕ α)} {limit : Nat} {s s' : σ} {cs rest : List Char}
    (h : step s cs = .ok (.inl s', rest)) :
  loopWithin step (limit + 1) s cs = loopWithin step limit s' rest
  := by rw [loopWithin, bind_of_ok h]

/-- A loop is over at the first step that has a result. -/
theorem loopWithin_done {step : σ → Reader (σ ⊕ α)} {limit : Nat} {s : σ} {a : α}
    {cs rest : List Char} (h : step s cs = .ok (.inr a, rest)) :
  loopWithin step (limit + 1) s cs = .ok (a, rest)
  := by
  rw [loopWithin, bind_of_ok h]
  rfl

/-! ### Texts -/

/-- A digit in base sixteen has the value that it was printed for. -/
theorem hexValue_hexDigit : ∀ n < 16,
  hexValue (Nat.digitChar n) = some n
  := by decide

/-- A control is read from the number that it is written as. -/
theorem hexUnit_control {c : Char} (h : c < ' ') :
  hexUnit '0' '0' (hexDigit (c.toNat / 16)) (hexDigit c.toNat) = some c.toNat
  := by
  have hc : c.toNat < 32 := h
  have hhigh : hexValue (hexDigit (c.toNat / 16)) = some (c.toNat / 16 % 16) :=
    hexValue_hexDigit _ (by omega)
  have hlow : hexValue (hexDigit c.toNat) = some (c.toNat % 16) := hexValue_hexDigit _ (by omega)
  have hzero : hexValue '0' = some 0 := rfl
  simp only [hexUnit, hhigh, hlow, hzero, Option.bind_eq_bind, Option.bind_some, Option.pure_def]
  congr 1
  omega

/-- A character that needs no escape is read as it is. -/
theorem textBody_plain {c : Char} {cs : List Char} (hquote : c ≠ '"') (hbackslash : c ≠ '\\')
    (hcontrol : ¬ c < ' ') :
  textBody (c :: cs) = do
    let (front, rest) ← textBody cs
    return (c :: front, rest)
  := by
  rw [textBody, if_neg hcontrol]
  all_goals simp [hquote, hbackslash]

/-- An escaped character is read as the character. -/
theorem textBody_escaped (c : Char) (cs : List Char) :
  textBody (escaped c ++ cs) = do
    let (front, rest) ← textBody cs
    return (c :: front, rest)
  := by
  rw [escaped]
  split
  · subst_vars; rfl
  split
  · subst_vars; rfl
  split
  · subst_vars; rfl
  split
  · subst_vars; rfl
  split
  · subst_vars; rfl
  split
  · subst_vars; rfl
  split
  · subst_vars; rfl
  split
  next hcontrol =>
    have hc : c.toNat < 32 := hcontrol
    have hlow : ¬ (0xDC00 ≤ c.toNat ∧ c.toNat ≤ 0xDFFF) := by omega
    have hhigh : ¬ (0xD800 ≤ c.toNat ∧ c.toNat ≤ 0xDBFF) := by omega
    simp only [List.cons_append, List.nil_append]
    rw [textBody, hexUnit_control hcontrol]
    simp only [hlow, hhigh, if_false, Char.ofNat_toNat]
  next hquote hbackslash _ _ _ _ _ hcontrol => exact textBody_plain hquote hbackslash hcontrol

/-- The escaped characters of a text are read up to the closing quote. -/
theorem textBody_flatMap (cs rest : List Char) :
  textBody (cs.flatMap escaped ++ '"' :: rest) = .ok (cs, rest)
  := by
  induction cs with
  | nil => rfl
  | cons c cs ih =>
    rw [List.flatMap_cons, List.append_assoc, textBody_escaped, ih]
    rfl

/-- After its opening quote a printed text is read as it was. -/
theorem text_append (s : String) (rest : List Char) :
  Reader.text (s.toList.flatMap escaped ++ '"' :: rest) = .ok (s, rest)
  := by
  rw [Reader.text, textBody_flatMap]
  exact congrArg (fun s => Except.ok (s, rest)) String.ofList_toList

/-- A text is read from its quotes. -/
theorem reads_textValue (expected s : String) :
  Reads (textValue expected) (Json.text s) s
  := by
  intro gap rest hgap hrest
  have hquote : ¬ isGap '"' := by decide
  simp only [Json.text, List.cons_append, List.append_assoc, List.nil_append]
  rw [textValue, bind_of_ok (peek_gap hgap hquote)]
  exact (bind_of_ok take_cons).trans (text_append s rest)

/-! ### Words -/

/-- The words for the truth values are read as such. -/
theorem reads_boolValue (b : Bool) :
  Reads boolValue (Json.bool b) b
  := by
  intro gap rest hgap hrest
  cases b with
  | true =>
    have ht : ¬ isGap 't' := by decide
    apply (bind_of_ok (peek_gap hgap ht)).trans
    exact bind_of_ok (word_append "true".toList rest)
  | false =>
    have hf : ¬ isGap 'f' := by decide
    apply (bind_of_ok (peek_gap hgap hf)).trans
    exact bind_of_ok (word_append "false".toList rest)

/-! ### Numbers -/

/-- All digits of a number are taken, since what may stand behind a value is no digit. -/
theorem digits_toDigits (n : Nat) {rest : List Char} (hrest : Spacing.isEnd rest) :
  digits (Nat.toDigits 10 n ++ rest) = .ok (Nat.toDigits 10 n, rest)
  := by
  have hall : ∀ c ∈ Nat.toDigits 10 n, c.isDigit := fun _ => Digits.isDigit_of_mem
  have hstop : rest.takeWhile Char.isDigit = [] ∧ rest.dropWhile Char.isDigit = rest := by
    cases rest with
    | nil => exact ⟨rfl, rfl⟩
    | cons c rest =>
      have hc := (Spacing.ne_of_isEnd hrest).1
      exact ⟨List.takeWhile_cons_of_neg hc, List.dropWhile_cons_of_neg hc⟩
  rw [digits, List.takeWhile_append_of_pos hall, List.dropWhile_append_of_pos hall, hstop.1,
    hstop.2, List.append_nil]

/-- A printed number has no zero in front, so its digits are accepted. -/
theorem wholeDigits_toDigits (n : Nat) {rest : List Char} (hrest : Spacing.isEnd rest) :
  wholeDigits (Nat.toDigits 10 n ++ rest) = .ok (Nat.toDigits 10 n, rest)
  := by
  rw [wholeDigits, bind_of_ok (digits_toDigits n hrest)]
  -- There are digits, and none of them is a zero in front of others.
  refine congrFun (?_ : _ = (pure (Nat.toDigits 10 n) : Reader (List Char))) rest
  split
  next hnil => cases Nat.toDigits_ne_nil hnil
  next hzero => cases Digits.eq_nil_of_zero hzero
  next => rfl

/-- Further digits never make a number less. -/
theorem le_ofDigitChars (cs : List Char) (n : Nat) :
  n ≤ Nat.ofDigitChars 10 cs n
  := by
  induction cs generalizing n with
  | nil => exact Nat.le_of_eq Nat.ofDigitChars_nil.symm
  | cons c cs ih =>
    rw [Nat.ofDigitChars_cons]
    have hnext := ih (10 * n + (c.toNat - '0'.toNat))
    omega

/-- As long as the number stays below the bound, all digits are appended. -/
theorem extend_eq {bound n : Nat} {cs : List Char} (h : Nat.ofDigitChars 10 cs n < bound) :
  extend bound n cs = (Nat.ofDigitChars 10 cs n, [])
  := by
  induction cs generalizing n with
  | nil => rfl
  | cons c cs ih =>
    rw [Nat.ofDigitChars_cons] at h ⊢
    have hstep : 10 * n + digitValue c < bound := Nat.lt_of_le_of_lt (le_ofDigitChars cs _) h
    rw [extend, if_pos hstep]
    apply ih h

/-- The digits of a number that fits a word are read as the number. -/
theorem number_toDigits {negative : Bool} {n : Nat} (hn : n < UInt64.size)
    (hsign : negative = true → n ≠ 0 ∧ Int64.minValue.toInt ≤ -n) {rest : List Char}
    (hrest : Spacing.isEnd rest) :
  Reader.number negative (Nat.toDigits 10 n ++ rest)
    = .ok (.integer (if negative then -n else n), rest)
  := by
  have hextend : extend UInt64.size 0 (Nat.toDigits 10 n) = (n, []) := by
    rw [extend_eq (by rwa [Nat.ofDigitChars_ten_toDigits]), Nat.ofDigitChars_ten_toDigits]
  rw [Reader.number, bind_of_ok (wholeDigits_toDigits n hrest), hextend]
  dsimp only
  have hget : (get : Reader (List Char)) rest = .ok (rest, rest) := rfl
  rw [bind_of_ok hget]
  -- What may stand behind a value is neither a point nor an exponent.
  split
  next => cases (Spacing.ne_of_isEnd hrest).2.1 rfl
  next => cases (Spacing.ne_of_isEnd hrest).2.2.1 rfl
  next => cases (Spacing.ne_of_isEnd hrest).2.2.2 rfl
  next =>
    cases negative with
    | false => rfl
    | true => simp only [List.isEmpty_nil, Bool.not_true, Bool.false_eq_true, if_false, if_true,
        ne_eq, hsign rfl, not_false_eq_true, and_self]; rfl

section

variable {low high n : Int} {gap rest : List Char} (expected : String) (hlow : low ≤ n)
  (hhigh : n ≤ high) (hgap : gap.all isGap) (hrest : Spacing.isEnd rest)

include hlow hhigh

/-- A number within the bounds is returned. -/
theorem checked_integer {m : Int} (hm : m = n) :
  (if low ≤ m ∧ m ≤ high then pure m
    else throw (.mismatch (.outOfRange m expected)) : Reader Int) rest = .ok (n, rest)
  := by
  rw [hm, if_pos ⟨hlow, hhigh⟩]
  rfl

include hgap hrest

/-- A number below zero is read from a minus and its digits. -/
theorem integerValue_minus (hn : n < 0) (hmin : Int64.minValue.toInt ≤ n) :
  integerValue low high expected (gap ++ ('-' :: Nat.toDigits 10 n.natAbs ++ rest)) = .ok (n, rest)
  := by
  have hsize : (UInt64.size : Int) = 18446744073709551616 := rfl
  have hleast : Int64.minValue.toInt = -9223372036854775808 := rfl
  have hminus : ¬ isGap '-' := by decide
  have hnumber : Reader.number true (Nat.toDigits 10 n.natAbs ++ rest) = .ok (.integer _, rest) :=
    number_toDigits (by omega) (by omega) hrest
  rw [integerValue, List.cons_append, bind_of_ok (peek_gap hgap hminus)]
  apply (bind_of_ok take_cons).trans
  apply (bind_of_ok hnumber).trans
  apply checked_integer expected hlow hhigh
  simp only [if_true]
  omega

/-- A number that is not below zero is read from its digits. -/
theorem integerValue_digits (hn : 0 ≤ n) (hmax : n < UInt64.size) :
  integerValue low high expected (gap ++ (Nat.toDigits 10 n.natAbs ++ rest)) = .ok (n, rest)
  := by
  have hnumber : Reader.number false (Nat.toDigits 10 n.natAbs ++ rest) = .ok (.integer _, rest) :=
    number_toDigits (by omega) (by simp) hrest
  obtain ⟨c, cs, hcs, hdigit⟩ := Digits.exists_cons n.natAbs
  have hstart : Spacing.isStart c := by rw [Spacing.isStart, hdigit, Bool.or_true]
  have hfirst : ¬ isGap c := (Spacing.ne_of_isStart hstart).1
  rw [hcs] at hnumber ⊢
  rw [integerValue, List.cons_append, bind_of_ok (peek_gap hgap hfirst)]
  generalize hsome : some c = first
  split
  next =>
    rw [Option.some.inj hsome] at hdigit
    cases hdigit
  next c' =>
    obtain rfl := Option.some.inj hsome
    rw [if_pos hdigit]
    apply (bind_of_ok hnumber).trans
    apply checked_integer expected hlow hhigh
    simp only [Bool.false_eq_true, if_false]
    omega
  next => cases hsome

end

/-- A number that is within the bounds, and fits a word with or without a sign, is read from its
notation. -/
theorem reads_integerValue {low high n : Int} (expected : String) (hlow : low ≤ n)
    (hhigh : n ≤ high) (hmin : Int64.minValue.toInt ≤ n) (hmax : n < UInt64.size) :
  Reads (integerValue low high expected) (Json.number n) n
  := by
  intro gap rest hgap hrest
  by_cases hn : n < 0
  · rw [Json.number, if_pos hn]
    exact integerValue_minus expected hlow hhigh hgap hrest hn hmin
  · rw [Json.number, if_neg hn]
    exact integerValue_digits expected hlow hhigh hgap hrest (Int.not_lt.mp hn) hmax

/-! ### Values that may be left out -/

/-- The word for nothing is read as no value. -/
theorem reads_optional_none (r : Reader α) :
  Reads (optional r) "null".toList none
  := by
  intro gap rest hgap hrest
  have hn : ¬ isGap 'n' := by decide
  apply (bind_of_ok (peek_gap hgap hn)).trans
  exact bind_of_ok (word_append "null".toList rest)

/-- A value that does not start like the word for nothing is read as a value. -/
theorem Reads.optional {r : Reader α} {c : Char} {cs : List Char} {a : α} (h : Reads r (c :: cs) a)
    (hgap : ¬ isGap c) (hc : c ≠ 'n') :
  Reads (optional r) (c :: cs) (some a)
  := by
  intro gap rest hgaps hrest
  have hvalue : r (c :: (cs ++ rest)) = .ok (a, rest) := h [] rest rfl hrest
  rw [Reader.optional, List.cons_append, bind_of_ok (peek_gap hgaps hgap)]
  generalize hfirst : some c = first
  split
  next => cases hc (Option.some.inj hfirst)
  next => exact bind_of_ok hvalue

/-! ### Lists -/

/-- The closing bracket is left. -/
theorem nextItem_close {isFirst : Bool} {gap rest : List Char} (hgap : gap.all isGap) :
  nextItem isFirst (gap ++ ']' :: rest) = .ok (false, ']' :: rest)
  := by
  have hclose : ¬ isGap ']' := by decide
  apply (bind_of_ok (peek_gap hgap hclose)).trans
  rfl

/-- The first item has no comma in front of it. -/
theorem nextItem_first {gap cs : List Char} {c : Char} (hgap : gap.all isGap)
    (hc : Spacing.isStart c) :
  nextItem true (gap ++ c :: cs) = .ok (true, c :: cs)
  := by
  obtain ⟨hc, hcomma, hclose, -⟩ := Spacing.ne_of_isStart hc
  apply (bind_of_ok (peek_gap hgap hc)).trans
  generalize hfirst : some c = first
  split
  next => cases hfirst
  next => cases hclose (Option.some.inj hfirst)
  next => cases hcomma (Option.some.inj hfirst)
  next => rfl

/-- A later item stands behind a comma. -/
theorem nextItem_comma {gap cs : List Char} {c : Char} (hgap : gap.all isGap)
    (hc : Spacing.isStart c) :
  nextItem false (',' :: (gap ++ c :: cs)) = .ok (true, c :: cs)
  := by
  obtain ⟨hc, -, hclose, -⟩ := Spacing.ne_of_isStart hc
  have hcomma : ¬ isGap ',' := by decide
  apply (bind_of_ok (peek_cons hcomma)).trans
  apply (bind_of_ok take_cons).trans
  apply (bind_of_ok (peek_gap hgap hc)).trans
  generalize hfirst : some c = first
  split
  next => cases hfirst
  next => cases hclose (Option.some.inj hfirst)
  next => rfl

/-- Reads an item of a list, or ends it. -/
def itemStep (value : Reader α) (s : Bool × List α) : Reader ((Bool × List α) ⊕ List α) := do
  if ← nextItem s.1 then return .inl (false, (← value) :: s.2)
  else take; return .inr s.2.reverse

/-- A step of the loop puts the item that it reads before those read so far. -/
theorem itemStep_next {value : Reader α} {isFirst : Bool} {done : List α} {a : α}
    {cs vs rest : List Char} (hitem : nextItem isFirst cs = .ok (true, vs))
    (hvalue : value vs = .ok (a, rest)) :
  itemStep value (isFirst, done) cs = .ok (.inl (false, a :: done), rest)
  := by
  rw [itemStep, bind_of_ok hitem, if_pos rfl, bind_of_ok hvalue]
  rfl

/-- At the closing bracket the loop returns the items in the order in which they were read. -/
theorem itemStep_close {value : Reader α} {isFirst : Bool} {done : List α} {gap rest : List Char}
    (hgap : gap.all isGap) :
  itemStep value (isFirst, done) (gap ++ ']' :: rest) = .ok (.inr done.reverse, rest)
  := by
  rw [itemStep, bind_of_ok (nextItem_close hgap)]
  rfl

/-- Every item takes a character, so the loop has enough steps for all of them. -/
theorem length_items (sp : Spacing) (depth : Nat) (ts : List Tree) :
  ts.length < (sp.items depth ts).length
  := by
  induction ts with
  | nil => simp [Spacing.items]
  | cons t ts ih =>
    simp only [Spacing.items, List.length_append, List.length_cons]
    omega

section

variable {sp : Spacing} {depth : Nat} {value : Reader α} {encode : α → Tree}

/-- The items behind the first one are read in order. -/
theorem loopWithin_items {as : List α}
    (h : ∀ a ∈ as, Reads value (sp.value (depth + 1) (encode a)) a) {limit : Nat} {done : List α}
    {rest : List Char} (hlimit : as.length < limit) :
  loopWithin (itemStep value) limit (false, done) (sp.items depth (as.map encode) ++ rest)
    = .ok (done.reverse ++ as, rest)
  := by
  induction as generalizing limit done with
  | nil =>
    obtain ⟨limit, rfl⟩ := Nat.exists_eq_add_of_lt hlimit
    rw [List.map_nil, Spacing.items, List.append_assoc, List.append_nil]
    exact loopWithin_done (itemStep_close (sp.line_gap depth))
  | cons a as ih =>
    obtain ⟨ha, has⟩ := List.forall_mem_cons.mp h
    obtain ⟨limit, rfl⟩ : ∃ n, limit = n + 1 := ⟨limit - 1, by omega⟩
    obtain ⟨c, cs, hcs, hc, -⟩ := sp.exists_value (depth + 1) (encode a)
    have hvalue : value ([] ++ (_ ++ (sp.items depth (as.map encode) ++ rest))) = .ok (a, _) :=
      ha [] _ rfl Spacing.isEnd_items
    rw [List.map_cons, Spacing.items]
    rw [hcs] at hvalue ⊢
    simp only [List.cons_append, List.append_assoc, List.nil_append] at hvalue ⊢
    rw [loopWithin_next (itemStep_next (nextItem_comma (sp.line_gap _) hc) hvalue),
      ih has (by simpa using hlimit)]
    simp

/-- A list is read item by item, whatever spacing it has. -/
theorem reads_listOf {as : List α}
    (h : ∀ a ∈ as, Reads value (sp.value (depth + 1) (encode a)) a) :
  Reads (listOf value) (sp.value depth (.list (as.map encode))) as
  := by
  intro gap rest hgap hrest
  have hopen : ¬ isGap '[' := by decide
  have hlist : ∀ cs, listOf value (gap ++ '[' :: cs)
      = loopWithin (itemStep value) (2 * cs.length + 2) (true, []) cs := by
    intro cs
    apply (bind_of_ok (peek_gap hgap hopen)).trans
    exact bind_of_ok take_cons
  cases as with
  | nil =>
    have hnil : ([] : List Char).all isGap := rfl
    exact (hlist _).trans (loopWithin_done (itemStep_close hnil))
  | cons a as =>
    obtain ⟨ha, has⟩ := List.forall_mem_cons.mp h
    obtain ⟨c, cs, hcs, hc, -⟩ := sp.exists_value (depth + 1) (encode a)
    have hvalue : value ([] ++ (_ ++ (sp.items depth (as.map encode) ++ rest))) = .ok (a, _) :=
      ha [] _ rfl Spacing.isEnd_items
    have hlimit := length_items sp depth (as.map encode)
    rw [List.map_cons, Spacing.value]
    rw [hcs] at hvalue ⊢
    simp only [List.cons_append, List.append_assoc, List.nil_append] at hvalue ⊢
    rw [hlist, loopWithin_next (itemStep_next (nextItem_first (sp.line_gap _) hc) hvalue),
      loopWithin_items has]
    · rfl
    · simp only [List.length_append, List.length_map, List.length_cons] at hlimit ⊢
      omega

end

/-! ### Members -/

/-- The closing brace is left. -/
theorem nextMember_close {isFirst : Bool} {gap rest : List Char} (hgap : gap.all isGap) :
  nextMember isFirst (gap ++ '\x7d' :: rest) = .ok (false, '\x7d' :: rest)
  := by
  have hclose : ¬ isGap '\x7d' := by decide
  apply (bind_of_ok (peek_gap hgap hclose)).trans
  rfl

/-- The opening quote of the name is taken. -/
theorem nextMember_first {gap : List Char} (hgap : gap.all isGap) (cs : List Char) :
  nextMember true (gap ++ '"' :: cs) = .ok (true, cs)
  := by
  have hquote : ¬ isGap '"' := by decide
  apply (bind_of_ok (peek_gap hgap hquote)).trans
  rfl

/-- A later member stands behind a comma. -/
theorem nextMember_comma {gap : List Char} (hgap : gap.all isGap) (cs : List Char) :
  nextMember false (',' :: (gap ++ '"' :: cs)) = .ok (true, cs)
  := by
  have hcomma : ¬ isGap ',' := by decide
  have hquote : ¬ isGap '"' := by decide
  apply (bind_of_ok (peek_cons hcomma)).trans
  apply (bind_of_ok take_cons).trans
  apply (bind_of_ok (peek_gap hgap hquote)).trans
  rfl

theorem colon_cons {cs : List Char} :
  colon (':' :: cs) = .ok ((), cs)
  := by
  have hcolon : ¬ isGap ':' := by decide
  apply (bind_of_ok (peek_cons hcolon)).trans
  rfl

/-- Every member takes a character, so the loop has enough steps for all of them. -/
theorem length_members (sp : Spacing) (depth : Nat) (ms : List (String × Tree)) :
  ms.length < (sp.members depth ms).length
  := by
  induction ms with
  | nil => simp [Spacing.members]
  | cons m ms ih =>
    simp only [Spacing.members, List.length_append, List.length_cons]
    omega

/-! ### Names -/

/-- A variant is read from its name. -/
theorem reads_oneOf {variants : List (String × α)} {name : String} {a : α}
    (h : variants.lookup name = some a) :
  Reads (oneOf variants) (Json.text name) a
  := by
  intro gap rest hgap hrest
  have hquote : ¬ isGap '"' := by decide
  simp only [Json.text, List.cons_append, List.append_assoc, List.nil_append]
  apply (bind_of_ok (peek_gap hgap hquote)).trans
  apply (bind_of_ok take_cons).trans
  apply (bind_of_ok (text_append name rest)).trans
  simp only [h]
  rfl

end DetachedSchema.Json.Reader
