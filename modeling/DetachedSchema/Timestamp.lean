import DetachedSchema.Text.Blank

/-!
# Timestamps

A moment in universal time, written and read in the notation of RFC 3339.  Reading is lenient:
blanks may stand between the parts, fields may be shorter than usual, a space may stand for the `T`,
and any offset from universal time is converted.
-/

namespace DetachedSchema

/-- A moment in universal time, by the proleptic Gregorian calendar.  The second is 60 in a leap
second. -/
structure Timestamp where
  year : Int
  month : Nat
  day : Nat
  hour : Nat
  minute : Nat
  second : Nat
  nanosecond : Nat
deriving DecidableEq

namespace Timestamp

/-! ### Calendar -/

/-- Whether the year has a 29th of February. -/
def isLeapYear (year : Int) : Bool := year % 4 = 0 && (year % 100 ≠ 0 || year % 400 = 0)

/-- The number of days of a month, zero when there is no such month. -/
def daysIn (year : Int) (month : Nat) : Nat :=
  match month with
  | 1 | 3 | 5 | 7 | 8 | 10 | 12 => 31
  | 4 | 6 | 9 | 11 => 30
  | 2 => if isLeapYear year then 29 else 28
  | _ => 0

/-- The first and last year of the calendar. -/
def firstYear : Int := -262143

@[inherit_doc firstYear]
def lastYear : Int := 262142

/-- Whether the year is in the calendar and the date exists in it. -/
def isDate (year : Int) (month day : Nat) : Bool :=
  firstYear ≤ year && year ≤ lastYear && 1 ≤ day && day ≤ daysIn year month

/-- The day before, if the calendar reaches so far. -/
def dayBefore (t : Timestamp) : Option Timestamp :=
  if t.day > 1 then some { t with day := t.day - 1 }
  else if t.month > 1 then some { t with month := t.month - 1, day := daysIn t.year (t.month - 1) }
  else if t.year > firstYear then some { t with year := t.year - 1, month := 12, day := 31 }
  else none

/-- The day after, if the calendar reaches so far. -/
def dayAfter (t : Timestamp) : Option Timestamp :=
  if t.day < daysIn t.year t.month then some { t with day := t.day + 1 }
  else if t.month < 12 then some { t with month := t.month + 1, day := 1 }
  else if t.year < lastYear then some { t with year := t.year + 1, month := 1, day := 1 }
  else none

/-- The moment that shows as the given one where clocks are ahead by a number of minutes. -/
def ahead (t : Timestamp) (minutes : Int) : Option Timestamp :=
  let total : Int := t.hour * 60 + t.minute - minutes
  let minute := (total % 1440).toNat
  let t := { t with hour := minute / 60, minute := minute % 60 }
  if total < 0 then t.dayBefore
  else if total ≥ 1440 then t.dayAfter
  else some t

/-- The year, month and day so many days after the start of 1970.  Counted from the 1st of March,
the months have a regular course and the leap day is the last of the year; years repeat every 146097
days. -/
def dateOfDays (days : Int) : Int × Nat × Nat :=
  let sinceMarch := days + 719468
  let cycle := sinceMarch / 146097
  let day := (sinceMarch % 146097).toNat
  let year := (day - day / 1460 + day / 36524 - day / 146096) / 365
  let dayOfYear := day - (365 * year + year / 4 - year / 100)
  let march := (5 * dayOfYear + 2) / 153
  let month := if march < 10 then march + 3 else march - 9
  (cycle * 400 + year + (if month ≤ 2 then 1 else 0), month, dayOfYear - (153 * march + 2) / 5 + 1)

/-- The moment so many nanoseconds after the start of 1970. -/
def ofNanoseconds (n : Int) : Timestamp :=
  let (year, month, day) := dateOfDays (n / 86400000000000)
  let time := (n % 86400000000000).toNat
  let seconds := time / 1000000000
  ⟨year, month, day, seconds / 3600, seconds / 60 % 60, seconds % 60, time % 1000000000⟩

/-! ### Writing -/

/-- A number with at least the given count of digits. -/
def padded (count : Nat) (n : Nat) : List Char :=
  let digits := Nat.toDigits 10 n
  List.replicate (count - digits.length) '0' ++ digits

/-- The year with four digits; a year outside 0 to 9999 has a sign. -/
def yearText (year : Int) : List Char :=
  if 0 ≤ year ∧ year ≤ 9999 then padded 4 year.toNat
  else (if year < 0 then '-' else '+') :: padded 4 year.natAbs

/-- The fraction of a second with the fewest of 0, 3, 6 and 9 digits that is exact. -/
def fractionText (nanosecond : Nat) : List Char :=
  if nanosecond = 0 then []
  else if nanosecond % 1000000 = 0 then '.' :: padded 3 (nanosecond / 1000000)
  else if nanosecond % 1000 = 0 then '.' :: padded 6 (nanosecond / 1000)
  else '.' :: padded 9 nanosecond

/-- The date and time without an offset. -/
def localText (t : Timestamp) : List Char :=
  yearText t.year ++ '-' :: padded 2 t.month ++ '-' :: padded 2 t.day ++ 'T' :: padded 2 t.hour ++
    ':' :: padded 2 t.minute ++ ':' :: padded 2 t.second ++ fractionText t.nanosecond

/-- The text of the moment, marked as universal time by a `Z`. -/
def text (t : Timestamp) : String := String.ofList (t.localText ++ ['Z'])

/-- The text of the moment with the offset written out. -/
def offsetText (t : Timestamp) : String := String.ofList (t.localText ++ "+00:00".toList)

/-! ### Reading -/

/-- Why a text is not a moment. -/
inductive Fault
  | tooShort
  | tooLong
  | invalid
  | outOfRange
  | impossible
deriving DecidableEq

/-- The fault in words. -/
def Fault.message : Fault → String
  | .tooShort => "premature end of input"
  | .tooLong => "trailing input"
  | .invalid => "input contains invalid characters"
  | .outOfRange => "input is out of range"
  | .impossible => "no possible date and time matching input"

/-- A reader takes a part of the text and leaves the rest. -/
abbrev Reader := StateT (List Char) (Except Fault)

/-- The value of a run of digits. -/
def digitsValue (digits : List Char) : Nat :=
  digits.foldl (fun n c => 10 * n + (c.toNat - '0'.toNat)) 0

/-- A number of at least one and at most `width` digits. -/
def number (width : Nat) : Reader Nat := fun cs =>
  let digits := (cs.take width).takeWhile Char.isDigit
  match cs, digits with
  | [], _ => .error .tooShort
  | _, [] => .error .invalid
  | _, _ =>
    if digitsValue digits ≤ Int64.maxValue.toInt then
      .ok (digitsValue digits, cs.drop digits.length)
    else .error .outOfRange

/-- Blanks, which are left out. -/
def blanks : Reader Unit := fun cs => .ok ((), Text.dropBlank cs)

/-- A number after blanks, of at most two digits and in a range. -/
def field (low high : Nat) : Reader Nat := do
  blanks
  let n ← number 2
  if low ≤ n ∧ n ≤ high then return n else throw .outOfRange

/-- A sign between two parts, after blanks. -/
def separator (sign : Char) : Reader Unit := fun cs =>
  match Text.dropBlank cs with
  | [] => .error .tooShort
  | c :: rest => if c = sign then .ok ((), rest) else .error .invalid

/-- A year after blanks: four digits at most, or a sign and any number of digits. -/
def signedYear : Reader Int := do
  blanks
  let signed (negative : Bool) (rest : List Char) : Except Fault (Int × List Char) := do
    let (n, rest) ← number rest.length rest
    let value : Int := if negative then -n else n
    if Int32.minValue.toInt ≤ value ∧ value ≤ Int32.maxValue.toInt then return (value, rest)
    else throw .outOfRange
  fun cs => match cs with
    | '-' :: rest => signed true rest
    | '+' :: rest => signed false rest
    | _ => do
      let (n, rest) ← number 4 cs
      return ((n : Int), rest)

/-- The character between date and time. -/
def timeMark : Reader Unit := fun cs =>
  match cs with
  | [] => .error .tooShort
  | c :: rest => if c = 't' ∨ c = 'T' ∨ c = ' ' then .ok ((), rest) else .error .invalid

/-- The fraction of a second in nanoseconds; digits after the ninth are left out. -/
def fraction : Reader Nat := fun cs =>
  match cs with
  | '.' :: rest => do
    let (n, after) ← number 9 rest
    return (n * Nat.pow 10 (9 - (rest.length - after.length)), after.dropWhile Char.isDigit)
  | _ => .ok (0, cs)

/-- Two digits of an offset, the first of them at most `greatest`. -/
def offsetDigits (greatest : Char) : Reader Nat := fun cs =>
  match cs with
  | [] => .error .tooShort
  | [c] => if c.utf8Size < 2 then .error .tooShort else .error .invalid
  | a :: b :: rest =>
    if a.isDigit ∧ b.isDigit then
      if a ≤ greatest then .ok (digitsValue [a, b], rest) else .error .outOfRange
    else .error .invalid

/-- The minutes by which clocks are ahead of universal time. -/
def offset : Reader Int := do
  blanks
  fun cs =>
    if (cs.take 3).map Char.toLower = ['u', 't', 'c'] then .ok (0, cs.drop 3)
    else
      let minutes (sign : Int) (rest : List Char) : Except Fault (Int × List Char) := do
        let (hours, rest) ← offsetDigits '9' rest
        let rest := rest.dropWhile fun c => c = ':' || Text.isBlank c
        let (minutes, rest) ← offsetDigits '5' rest
        return (sign * (hours * 60 + minutes), rest)
      match cs with
      | [] => .error .tooShort
      | 'Z' :: rest | 'z' :: rest => .ok (0, rest)
      | '+' :: rest => minutes 1 rest
      | '-' :: rest | '−' :: rest => minutes (-1) rest
      | _ => .error .invalid

/-- The parts of a moment as they are written, with the offset. -/
def parts : Reader (Timestamp × Int) := do
  let y ← signedYear
  separator '-'
  let month ← field 1 12
  separator '-'
  let day ← field 1 31
  timeMark
  let hour ← field 0 23
  separator ':'
  let minute ← field 0 59
  separator ':'
  let second ← field 0 60
  let nanosecond ← fraction
  let minutes ← offset
  return (⟨y, month, day, hour, minute, second, nanosecond⟩, minutes)

/-- The moment that a text names. -/
def read (s : String) : Except Fault Timestamp := do
  let ((t, minutes), rest) ← parts s.toList
  unless (Text.dropBlank rest).isEmpty do throw .tooLong
  unless isDate t.year t.month t.day do throw .outOfRange
  unless minutes.natAbs < 1440 do throw .outOfRange
  match t.ahead minutes with
  | some t => return t
  | none => throw .impossible

end Timestamp

end DetachedSchema
