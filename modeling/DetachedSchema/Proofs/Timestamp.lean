import DetachedSchema.Proofs.Digits
import DetachedSchema.Proofs.Except
import DetachedSchema.Timestamp

/-!
# Moments and their notation

A moment of the calendar is read from the text that is written for it, whatever its year and however
many digits its fraction of a second has.
-/

namespace DetachedSchema.Timestamp

/-- The date exists and the time of day is one that clocks show. -/
structure Valid (t : Timestamp) : Prop where
  date : isDate t.year t.month t.day
  hour : t.hour < 24
  minute : t.minute < 60
  second : t.second ≤ 60
  nanosecond : t.nanosecond < 1000000000

/-! ### Digits -/

theorem isDigit_of_mem_padded {count n : Nat} {c : Char} (h : c ∈ padded count n) :
  c.isDigit
  := by
  rw [padded] at h
  obtain h | h := List.mem_append.mp h
  · rw [List.eq_of_mem_replicate h]
    rfl
  · exact Digits.isDigit_of_mem h

/-- A number that is not too long is written with just so many digits. -/
theorem length_padded {count n : Nat} (hcount : 0 < count) (hn : n < 10 ^ count) :
  (padded count n).length = count
  := by
  have hdigits := (Nat.length_toDigits_le_iff (by decide) hcount).mpr hn
  rw [padded, List.length_append, List.length_replicate]
  omega

/-- Zeros in front do not change a number. -/
theorem digitsValue_padded (count n : Nat) :
  digitsValue (padded count n) = n
  := by
  have hzeros : ∀ k, digitsValue (List.replicate k '0' ++ Nat.toDigits 10 n) = n := by
    intro k
    induction k with
    | zero => exact Nat.ofDigitChars_ten_toDigits
    | succ k ih => exact ih
  exact hzeros _

theorem exists_padded (count n : Nat) :
  ∃ c cs, padded count n = c :: cs ∧ c.isDigit
  := by
  have hnil : padded count n ≠ [] := by simp [padded]
  obtain ⟨c, cs, hcs⟩ := List.exists_cons_of_ne_nil hnil
  have hc : c ∈ padded count n := hcs ▸ List.mem_cons_self
  exact ⟨c, cs, hcs, isDigit_of_mem_padded hc⟩

/-! ### Readers -/

theorem isBlank_of_isDigit {c : Char} (h : c.isDigit) :
  Text.isBlank c = false
  := by
  have hc := Char.isDigit_iff_toNat.mp h
  simp only [Char.reduceToNat] at hc
  simp only [Text.isBlank, Bool.or_eq_false_iff, Bool.and_eq_false_iff, decide_eq_false_iff_not,
    beq_eq_false_iff_ne]
  omega

theorem blanks_padded {count n : Nat} {rest : List Char} :
  blanks (padded count n ++ rest) = .ok ((), padded count n ++ rest)
  := by
  obtain ⟨c, cs, hcs, hc⟩ := exists_padded count n
  rw [blanks, Text.dropBlank, hcs, List.cons_append, List.dropWhile_cons_of_neg]
  simp [isBlank_of_isDigit hc]

/-- A number is read to its last digit when it is as long as expected or no digit follows. -/
theorem number_padded {width count n : Nat} {rest : List Char}
    (hlength : (padded count n).length ≤ width)
    (hrest : (padded count n).length = width ∨ ∀ c ∈ rest.head?, ¬ c.isDigit)
    (hn : n ≤ Int64.maxValue.toInt) :
  number width (padded count n ++ rest) = .ok (n, rest)
  := by
  have hdigits : ((padded count n ++ rest).take width).takeWhile Char.isDigit = padded count n := by
    rw [List.take_append, List.take_of_length_le hlength,
      List.takeWhile_append_of_pos fun _ => isDigit_of_mem_padded]
    obtain hwidth | hstop := hrest
    · rw [hwidth, Nat.sub_self, List.take_zero, List.takeWhile_nil, List.append_nil]
    · cases rest with
      | nil => simp
      | cons c cs =>
        have hc : ¬ c.isDigit := hstop c rfl
        cases width - (padded count n).length with
        | zero => rw [List.take_zero, List.takeWhile_nil, List.append_nil]
        | succ k => rw [List.take_succ_cons, List.takeWhile_cons_of_neg hc, List.append_nil]
  obtain ⟨c, cs, hcs, -⟩ := exists_padded count n
  have hvalue : digitsValue (c :: cs) = n := hcs ▸ digitsValue_padded count n
  rw [hcs] at hdigits ⊢
  unfold number
  rw [hdigits, List.cons_append]
  dsimp only
  rw [hvalue, if_pos hn, ← List.cons_append, List.drop_left]

/-- A part of a date or of a time of day is read when it is within its bounds. -/
theorem field_padded {low high n : Nat} {rest : List Char} (hlow : low ≤ n) (hhigh : n ≤ high)
    (hn : n < 100) :
  field low high (padded 2 n ++ rest) = .ok (n, rest)
  := by
  have hlength : (padded 2 n).length = 2 := length_padded (by decide) hn
  have hmax : Int64.maxValue.toInt = 9223372036854775807 := rfl
  have hnumber : number 2 (padded 2 n ++ rest) = .ok (n, rest) :=
    number_padded (Nat.le_of_eq hlength) (.inl hlength) (by omega)
  rw [field, bind_of_ok blanks_padded, bind_of_ok hnumber, if_pos ⟨hlow, hhigh⟩]
  rfl

theorem separator_cons {sign : Char} {rest : List Char} (hsign : Text.isBlank sign = false) :
  separator sign (sign :: rest) = .ok ((), rest)
  := by
  have hdrop : Text.dropBlank (sign :: rest) = sign :: rest :=
    List.dropWhile_cons_of_neg (by simp [hsign])
  rw [separator, hdrop]
  dsimp only
  rw [if_pos rfl]

/-! ### Years -/

section

variable {rest : List Char}

theorem not_isDigit_of_dash :
  ∀ c ∈ ('-' :: rest).head?, ¬ c.isDigit
  := by
  rintro c ⟨⟩
  decide

/-- A year of four digits is read without a sign. -/
theorem signedYear_padded {n : Nat} (hn : n < 10 ^ 4) :
  signedYear (padded 4 n ++ '-' :: rest) = .ok ((n : Int), '-' :: rest)
  := by
  have hmax : Int64.maxValue.toInt = 9223372036854775807 := rfl
  have hlength : (padded 4 n).length = 4 := length_padded (by decide) hn
  have hnumber : number 4 (padded 4 n ++ '-' :: rest) = .ok (n, '-' :: rest) :=
    number_padded (Nat.le_of_eq hlength) (.inl hlength) (by omega)
  rw [signedYear]
  apply (bind_of_ok blanks_padded).trans
  obtain ⟨c, cs, hcs, hc⟩ := exists_padded 4 n
  rw [hcs, List.cons_append] at hnumber ⊢
  dsimp only
  split
  next heq =>
    rw [(List.cons.inj heq).1] at hc
    cases hc
  next heq =>
    rw [(List.cons.inj heq).1] at hc
    cases hc
  next =>
    rw [hnumber]
    rfl

/-- All digits behind a sign are read. -/
theorem number_signed {n : Nat} (hn : n ≤ Int64.maxValue.toInt) :
  number (padded 4 n ++ '-' :: rest).length (padded 4 n ++ '-' :: rest) = .ok (n, '-' :: rest)
  := by
  apply number_padded _ (.inr not_isDigit_of_dash) hn
  rw [List.length_append]
  omega

/-- What follows a sign is read as a year when it is in range. -/
theorem signed_padded {n : Nat} {negative : Bool} {year : Int}
    (hyear : (if negative then -(n : Int) else n) = year) (hleast : Int32.minValue.toInt ≤ year)
    (hgreatest : year ≤ Int32.maxValue.toInt) :
  ((number (padded 4 n ++ '-' :: rest).length (padded 4 n ++ '-' :: rest) :
      Except Fault (Nat × List Char)) >>= fun (n, rest) =>
    if Int32.minValue.toInt ≤ (if negative then -(n : Int) else n)
      ∧ (if negative then -(n : Int) else n) ≤ Int32.maxValue.toInt then
      return (if negative then -(n : Int) else n, rest)
    else throw .outOfRange) = .ok (year, '-' :: rest)
  := by
  have hmax : Int64.maxValue.toInt = 9223372036854775807 := rfl
  have hmin32 : Int32.minValue.toInt = -2147483648 := rfl
  have hmax32 : Int32.maxValue.toInt = 2147483647 := rfl
  have hn : (n : Int) ≤ Int64.maxValue.toInt := by
    split at hyear
    all_goals omega
  rw [number_signed hn]
  dsimp only [Bind.bind, Except.bind]
  rw [hyear, if_pos ⟨hleast, hgreatest⟩]
  rfl

/-- A year below zero is read from a minus and its digits. -/
theorem signedYear_minus {n : Nat} (hn : Int32.minValue.toInt ≤ -n) :
  signedYear ('-' :: (padded 4 n ++ '-' :: rest)) = .ok (-(n : Int), '-' :: rest)
  := by
  have hblanks : ∀ cs, blanks ('-' :: cs) = .ok ((), '-' :: cs) := fun _ => rfl
  have hgreatest : -(n : Int) ≤ Int32.maxValue.toInt := by
    have hmax32 : Int32.maxValue.toInt = 2147483647 := rfl
    omega
  rw [signedYear]
  apply (bind_of_ok (hblanks _)).trans
  exact signed_padded (if_pos rfl) hn hgreatest

/-- A year that is not below zero is read behind a plus too. -/
theorem signedYear_plus {n : Nat} (hn : n ≤ Int32.maxValue.toInt) :
  signedYear ('+' :: (padded 4 n ++ '-' :: rest)) = .ok ((n : Int), '-' :: rest)
  := by
  have hblanks : ∀ cs, blanks ('+' :: cs) = .ok ((), '+' :: cs) := fun _ => rfl
  have hleast : Int32.minValue.toInt ≤ (n : Int) := by
    have hmin32 : Int32.minValue.toInt = -2147483648 := rfl
    omega
  rw [signedYear]
  apply (bind_of_ok (hblanks _)).trans
  exact signed_padded (if_neg Bool.false_ne_true) hleast hn

/-- A year of the calendar is read in each of the three ways in which it may be written. -/
theorem signedYear_yearText {year : Int} (hfirst : firstYear ≤ year) (hlast : year ≤ lastYear) :
  signedYear (yearText year ++ '-' :: rest) = .ok (year, '-' :: rest)
  := by
  have hfirstYear : firstYear = -262143 := rfl
  have hlastYear : lastYear = 262142 := rfl
  have hleast : Int32.minValue.toInt = -2147483648 := rfl
  have hgreatest : Int32.maxValue.toInt = 2147483647 := rfl
  rw [yearText]
  split
  next hshort =>
    rw [signedYear_padded (by omega), Int.toNat_of_nonneg hshort.1]
  next =>
    by_cases hnegative : year < 0
    · have habs : -(year.natAbs : Int) = year := by omega
      rw [if_pos hnegative, List.cons_append, signedYear_minus (by omega), habs]
    · have habs : (year.natAbs : Int) = year := by omega
      rw [if_neg hnegative, List.cons_append, signedYear_plus (by omega), habs]

end

/-! ### Fractions of a second -/

/-- A fraction is read as nanoseconds, whatever number of digits it has up to nine. -/
theorem fraction_padded {count n : Nat} (hcount : 0 < count) (hle : count ≤ 9)
    (hn : n < 10 ^ count) :
  fraction ('.' :: (padded count n ++ ['Z'])) = .ok (n * 10 ^ (9 - count), ['Z'])
  := by
  have hlength : (padded count n).length = count := length_padded hcount hn
  have hpow : 10 ^ count ≤ 10 ^ 9 := Nat.pow_le_pow_right (by decide) hle
  have hmax : Int64.maxValue.toInt = 9223372036854775807 := rfl
  have hstop : ∀ c ∈ ['Z'].head?, ¬ c.isDigit := by
    rintro c ⟨⟩
    decide
  have hnumber : number 9 (padded count n ++ ['Z']) = .ok (n, ['Z']) :=
    number_padded (by omega) (.inr hstop) (by omega)
  have hcount : (padded count n ++ ['Z']).length - ['Z'].length = count := by simp [hlength]
  rw [fraction, hnumber]
  dsimp only [Bind.bind, Except.bind]
  rw [hcount]
  rfl

/-- A fraction without trailing zeros stands for the nanoseconds. -/
theorem fraction_fractionText {n : Nat} (hn : n < 1000000000) :
  fraction (fractionText n ++ ['Z']) = .ok (n, ['Z'])
  := by
  rw [fractionText]
  split
  next hzero =>
    rw [hzero]
    rfl
  split
  next hmilli =>
    have hscaled : n / 1000000 * 10 ^ (9 - 3) = n :=
      Nat.div_mul_cancel (Nat.dvd_of_mod_eq_zero hmilli)
    rw [List.cons_append, fraction_padded (by decide) (by decide) (by omega), hscaled]
  split
  next hmicro =>
    have hscaled : n / 1000 * 10 ^ (9 - 6) = n :=
      Nat.div_mul_cancel (Nat.dvd_of_mod_eq_zero hmicro)
    rw [List.cons_append, fraction_padded (by decide) (by decide) (by omega), hscaled]
  next =>
    rw [List.cons_append, fraction_padded (by decide) (by decide) hn, Nat.sub_self, Nat.pow_zero,
      Nat.mul_one]

theorem offset_utc :
  offset ['Z'] = .ok (0, [])
  := by decide

/-! ### Moments -/

/-- The parts of a date are within the bounds of the calendar. -/
theorem le_of_isDate {year : Int} {month day : Nat} (h : isDate year month day) :
  (firstYear ≤ year ∧ year ≤ lastYear) ∧ (1 ≤ month ∧ month ≤ 12) ∧ 1 ≤ day ∧ day ≤ 31
  := by
  simp only [isDate, Bool.and_eq_true, decide_eq_true_eq] at h
  obtain ⟨⟨⟨hfirst, hlast⟩, hone⟩, hdays⟩ := h
  have hmonth : daysIn year month ≤ 31 ∧ (1 ≤ daysIn year month → 1 ≤ month ∧ month ≤ 12) := by
    rw [daysIn.eq_def]
    split
    all_goals (try split)
    all_goals omega
  omega

/-- The parts of a moment are read from its text, and it is of universal time. -/
theorem parts_text {t : Timestamp} (h : t.Valid) :
  parts t.text.toList = .ok ((t, 0), [])
  := by
  obtain ⟨⟨hfirst, hlast⟩, ⟨hmonth, hmonth'⟩, hday, hday'⟩ := le_of_isDate h.date
  have hhour := h.hour
  have hminute := h.minute
  have hsecond := h.second
  rw [text, String.toList_ofList, localText]
  simp only [List.append_assoc, List.cons_append, parts]
  rw [bind_of_ok (signedYear_yearText hfirst hlast), bind_of_ok (separator_cons rfl),
    bind_of_ok (field_padded hmonth hmonth' (by omega)), bind_of_ok (separator_cons rfl),
    bind_of_ok (field_padded hday hday' (by omega))]
  have hmark : ∀ cs, timeMark ('T' :: cs) = .ok ((), cs) := fun _ => rfl
  rw [bind_of_ok (hmark _), bind_of_ok (field_padded (Nat.zero_le _) (by omega) (by omega)),
    bind_of_ok (separator_cons rfl),
    bind_of_ok (field_padded (Nat.zero_le _) (by omega) (by omega)),
    bind_of_ok (separator_cons rfl),
    bind_of_ok (field_padded (Nat.zero_le _) (by omega) (by omega)),
    bind_of_ok (fraction_fractionText h.nanosecond), bind_of_ok offset_utc]
  rfl

/-- Universal time is ahead of itself by nothing. -/
theorem ahead_zero {t : Timestamp} (hhour : t.hour < 24) (hminute : t.minute < 60) :
  t.ahead 0 = some t
  := by
  obtain ⟨year, month, day, hour, minute, second, nanosecond⟩ := t
  dsimp only at hhour hminute
  have htotal : ((hour * 60 + minute - 0 : Int) % 1440).toNat = hour * 60 + minute := by omega
  have hhours : (hour * 60 + minute) / 60 = hour := by omega
  have hminutes : (hour * 60 + minute) % 60 = minute := by omega
  rw [ahead]
  dsimp only
  rw [htotal, hhours, hminutes, if_neg (by omega), if_neg (by omega)]

/-- A moment is read from its text. -/
theorem read_text {t : Timestamp} (h : t.Valid) :
  read t.text = .ok t
  := by
  rw [read, parts_text h]
  dsimp only [Bind.bind, Except.bind]
  rw [ahead_zero h.hour h.minute]
  simp [h.date, Text.dropBlank]
  rfl

end DetachedSchema.Timestamp
