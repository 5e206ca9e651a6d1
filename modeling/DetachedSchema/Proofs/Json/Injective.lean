import DetachedSchema.Proofs.Json.Reading

/-!
# Different trees are printed differently

No tree without blanks is the start of another, so that a sequence of printed trees falls apart in
one way only.  Where a tree ends is told by its first character: a number ends where no digit
follows, a text at its quote, a list or record at the bracket that closes it.
-/

namespace DetachedSchema.Json

open Spacing (isEnd isStart kindOf)

/-- The first character of a printed tree tells its kind. -/
theorem exists_compact (t : Tree) :
  ∃ c cs, compact t = c :: cs ∧ isStart c ∧ kindOf c = t.kind
  := by
  rw [Spacing.compact_eq 0]
  exact Spacing.compact.exists_value 0 t

/-- Printed trees at the start of one text are of one kind. -/
theorem kind_eq {t t' : Tree} {rest rest' : List Char}
    (h : compact t ++ rest = compact t' ++ rest') :
  t.kind = t'.kind
  := by
  obtain ⟨c, cs, hcs, -, hc⟩ := exists_compact t
  obtain ⟨c', cs', hcs', -, hc'⟩ := exists_compact t'
  rw [hcs, hcs', List.cons_append, List.cons_append] at h
  rw [← hc, ← hc', (List.cons.inj h).1]

/-! ### Texts and numbers -/

/-- A printed text is over at its closing quote, so it is told from what stands behind it. -/
theorem text_append_inj {s s' : String} {rest rest' : List Char}
    (h : text s ++ rest = text s' ++ rest') :
  s = s' ∧ rest = rest'
  := by
  simp only [text, List.cons_append, List.append_assoc, List.nil_append] at h
  have hread := Reader.textBody_flatMap s.toList rest
  rw [(List.cons.inj h).2, Reader.textBody_flatMap] at hread
  obtain ⟨hchars, hrest⟩ := Prod.mk.inj (Except.ok.inj hread)
  exact ⟨(String.toList_inj.mp hchars).symm, hrest.symm⟩

/-- The digits of a number are over where something else stands. -/
theorem toDigits_append_inj {n n' : Nat} {rest rest' : List Char} (hrest : isEnd rest)
    (hrest' : isEnd rest') (h : Nat.toDigits 10 n ++ rest = Nat.toDigits 10 n' ++ rest') :
  n = n' ∧ rest = rest'
  := by
  have hread := Reader.digits_toDigits n hrest
  rw [h, Reader.digits_toDigits n' hrest'] at hread
  obtain ⟨hdigits, hrest⟩ := Prod.mk.inj (Except.ok.inj hread)
  have hvalue := congrArg (Nat.ofDigitChars 10 · 0) hdigits
  simp only [Nat.ofDigitChars_ten_toDigits] at hvalue
  exact ⟨hvalue.symm, hrest.symm⟩

/-- Numbers that start one text have the same sign, since a minus is no digit, and then the same
digits. -/
theorem number_append_inj {n n' : Int} {rest rest' : List Char} (hrest : isEnd rest)
    (hrest' : isEnd rest') (h : number n ++ rest = number n' ++ rest') :
  n = n' ∧ rest = rest'
  := by
  -- A number with a minus and one without do not start alike.
  have hdash : ∀ (k : Nat) (cs cs' : List Char), '-' :: cs ≠ Nat.toDigits 10 k ++ cs' := by
    intro k cs cs' heq
    obtain ⟨c, ds, hds, hc⟩ := Digits.exists_cons k
    rw [hds, List.cons_append] at heq
    rw [← (List.cons.inj heq).1] at hc
    cases hc
  rw [number, number] at h
  split at h
  next hn =>
    split at h
    next hn' =>
      rw [List.cons_append, List.cons_append] at h
      obtain ⟨habs, hrest⟩ := toDigits_append_inj hrest hrest' (List.cons.inj h).2
      exact ⟨by omega, hrest⟩
    next => cases hdash _ _ _ h
  next hn =>
    split at h
    next => cases hdash _ _ _ h.symm
    next hn' =>
      obtain ⟨habs, hrest⟩ := toDigits_append_inj hrest hrest' h
      exact ⟨by omega, hrest⟩

/-! ### Simple trees -/

theorem isEnd_compactItems {ts : List Tree} {rest : List Char} :
  isEnd (compactItems ts ++ rest)
  := by
  cases ts with
  | nil => rfl
  | cons t ts => rfl

theorem isEnd_compactMembers {ms : List (String × Tree)} {rest : List Char} :
  isEnd (compactMembers ms ++ rest)
  := by
  cases ms with
  | nil => rfl
  | cons m ms => rfl

/-- A printed tree does not start like the end of a list. -/
theorem ne_compact {t : Tree} {rest cs : List Char} :
  ']' :: cs ≠ compact t ++ rest
  := by
  intro h
  obtain ⟨c, cs, hcs, hc, -⟩ := exists_compact t
  rw [hcs, List.cons_append] at h
  exact (Spacing.ne_of_isStart hc).2.2.1 (List.cons.inj h).1.symm

/-- A text that starts with the tree starts with no other one, whatever follows. -/
def IsTold (t : Tree) : Prop :=
  ∀ (t' : Tree) ⦃rest rest' : List Char⦄, isEnd rest → isEnd rest' →
    compact t ++ rest = compact t' ++ rest' → t = t' ∧ rest = rest'

theorem isTold_null :
  IsTold .null
  := by
  intro t' rest rest' _ _ h
  have hkind := kind_eq h
  cases t' with
  | null => exact ⟨rfl, List.append_cancel_left h⟩
  | _ => cases hkind

/-- The two truth values differ in their first characters. -/
theorem isTold_bool (b : Bool) :
  IsTold (.bool b)
  := by
  intro t' rest rest' _ _ h
  have hkind := kind_eq h
  cases t' with
  | bool b' =>
    cases b
    all_goals
      cases b'
      all_goals first
        | exact ⟨rfl, List.append_cancel_left h⟩
        | cases (List.cons.inj h).1
  | _ => cases hkind

/-- A number is told when what stands behind it may stand behind a value. -/
theorem isTold_number (n : Int) :
  IsTold (.number n)
  := by
  intro t' rest rest' hrest hrest' h
  have hkind := kind_eq h
  cases t' with
  | number n' =>
    obtain ⟨rfl, rfl⟩ := number_append_inj hrest hrest' h
    exact ⟨rfl, rfl⟩
  | _ => cases hkind

/-- A text is told by its characters up to the closing quote. -/
theorem isTold_text (s : String) :
  IsTold (.text s)
  := by
  intro t' rest rest' _ _ h
  have hkind := kind_eq h
  cases t' with
  | text s' =>
    obtain ⟨rfl, rfl⟩ := text_append_inj h
    exact ⟨rfl, rfl⟩
  | _ => cases hkind

/-! ### Lists -/

/-- An item is told from the items behind it. -/
theorem item_append_inj {t t' : Tree} (ht : IsTold t) {ts ts' : List Tree} {rest rest' : List Char}
    (h : compact t ++ (compactItems ts ++ rest) = compact t' ++ (compactItems ts' ++ rest')) :
  t = t' ∧ compactItems ts ++ rest = compactItems ts' ++ rest'
  := ht t' isEnd_compactItems isEnd_compactItems h

/-- The items behind the first one are told, since the bracket that ends them is no comma. -/
theorem compactItems_append_inj {ts : List Tree} (hts : ∀ t ∈ ts, IsTold t) {ts' : List Tree}
    {rest rest' : List Char} (h : compactItems ts ++ rest = compactItems ts' ++ rest') :
  ts = ts' ∧ rest = rest'
  := by
  induction ts generalizing ts' with
  | nil =>
    cases ts' with
    | nil => exact ⟨rfl, (List.cons.inj h).2⟩
    | cons t' ts' => simp [compactItems] at h
  | cons t ts ih =>
    obtain ⟨ht, hts⟩ := List.forall_mem_cons.mp hts
    cases ts' with
    | nil => simp [compactItems] at h
    | cons t' ts' =>
      simp only [compactItems, List.cons_append, List.append_assoc] at h
      obtain ⟨rfl, hitems⟩ := item_append_inj ht (List.cons.inj h).2
      obtain ⟨rfl, rfl⟩ := ih hts hitems
      exact ⟨rfl, rfl⟩

/-- A list is told when its items are. -/
theorem isTold_list {ts : List Tree} (hts : ∀ t ∈ ts, IsTold t) :
  IsTold (.list ts)
  := by
  intro t' rest rest' _ _ h
  have hkind := kind_eq h
  cases t' with
  | list ts' =>
    cases ts with
    | nil =>
      cases ts' with
      | nil => exact ⟨rfl, List.append_cancel_left h⟩
      | cons t' ts' =>
        rw [compact, compact, List.cons_append, List.cons_append, List.append_assoc] at h
        cases ne_compact (List.cons.inj h).2
    | cons t ts =>
      obtain ⟨ht, hts⟩ := List.forall_mem_cons.mp hts
      cases ts' with
      | nil =>
        rw [compact, compact, List.cons_append, List.cons_append, List.append_assoc] at h
        cases ne_compact (List.cons.inj h).2.symm
      | cons t' ts' =>
        simp only [compact, List.cons_append, List.append_assoc] at h
        obtain ⟨rfl, hitems⟩ := item_append_inj ht (List.cons.inj h).2
        obtain ⟨rfl, rfl⟩ := compactItems_append_inj hts hitems
        exact ⟨rfl, rfl⟩
  | _ => cases hkind

/-! ### Records -/

/-- A member is told by its name and then by its value. -/
theorem member_append_inj {m m' : String × Tree} (hm : IsTold m.2) {ms ms' : List (String × Tree)}
    {rest rest' : List Char}
    (h : text m.1 ++ ':' :: (compact m.2 ++ (compactMembers ms ++ rest))
      = text m'.1 ++ ':' :: (compact m'.2 ++ (compactMembers ms' ++ rest'))) :
  m = m' ∧ compactMembers ms ++ rest = compactMembers ms' ++ rest'
  := by
  obtain ⟨hname, hvalue⟩ := text_append_inj h
  obtain ⟨htree, hmembers⟩ :=
    hm m'.2 isEnd_compactMembers isEnd_compactMembers (List.cons.inj hvalue).2
  exact ⟨Prod.ext hname htree, hmembers⟩

/-- The members behind the first one are told, since the brace that ends them is no comma. -/
theorem compactMembers_append_inj {ms : List (String × Tree)} (hms : ∀ m ∈ ms, IsTold m.2)
    {ms' : List (String × Tree)} {rest rest' : List Char}
    (h : compactMembers ms ++ rest = compactMembers ms' ++ rest') :
  ms = ms' ∧ rest = rest'
  := by
  induction ms generalizing ms' with
  | nil =>
    cases ms' with
    | nil => exact ⟨rfl, (List.cons.inj h).2⟩
    | cons m' ms' => simp [compactMembers] at h
  | cons m ms ih =>
    obtain ⟨hm, hms⟩ := List.forall_mem_cons.mp hms
    cases ms' with
    | nil => simp [compactMembers] at h
    | cons m' ms' =>
      simp only [compactMembers, List.cons_append, List.append_assoc] at h
      obtain ⟨rfl, hmembers⟩ := member_append_inj hm (List.cons.inj h).2
      obtain ⟨rfl, rfl⟩ := ih hms hmembers
      exact ⟨rfl, rfl⟩

/-- A record is told when the values of its members are. -/
theorem isTold_record {ms : List (String × Tree)} (hms : ∀ m ∈ ms, IsTold m.2) :
  IsTold (.record ms)
  := by
  intro t' rest rest' _ _ h
  have hkind := kind_eq h
  cases t' with
  | record ms' =>
    cases ms with
    | nil =>
      cases ms' with
      | nil => exact ⟨rfl, List.append_cancel_left h⟩
      | cons m' ms' => simp [compact, text] at h
    | cons m ms =>
      obtain ⟨hm, hms⟩ := List.forall_mem_cons.mp hms
      cases ms' with
      | nil => simp [compact, text] at h
      | cons m' ms' =>
        simp only [compact, List.cons_append, List.append_assoc] at h
        obtain ⟨rfl, hmembers⟩ := member_append_inj hm (List.cons.inj h).2
        obtain ⟨rfl, rfl⟩ := compactMembers_append_inj hms hmembers
        exact ⟨rfl, rfl⟩
  | _ => cases hkind

/-! ### Trees -/

/-- Every tree is told, from its leaves up. -/
theorem isTold : (t : Tree) → IsTold t
  | .null => isTold_null
  | .bool b => isTold_bool b
  | .number n => isTold_number n
  | .text s => isTold_text s
  | .list ts => isTold_list fun t _ => isTold t
  | .record ms => isTold_record fun m _ => isTold m.2
decreasing_by
  · rw [Tree.list.sizeOf_spec]
    have hlt := List.sizeOf_lt_of_mem ‹t ∈ ts›
    omega
  · rw [Tree.record.sizeOf_spec]
    have hlt := List.sizeOf_lt_of_mem ‹m ∈ ms›
    have hvalue : sizeOf m.2 < sizeOf m := by
      rw [Prod.mk.sizeOf_spec]
      omega
    omega

/-- Different trees are printed differently. -/
theorem print_injective :
  Function.Injective (print false)
  := by
  intro t t' h
  have hchars : compact t = compact t' := String.ofList_injective h
  have hends : compact t ++ [] = compact t' ++ [] := by rw [hchars]
  exact (isTold t t' rfl rfl hends).1

end DetachedSchema.Json
