import DetachedSchema.Json.Fault

/-!
# Reading JSON

A reader takes the front of a text and leaves the rest.  Reading is a single pass, so of several
faults the first one in the text is reported, and a value that nobody asked for is only skipped: its
texts and numbers have to be well formed but are not decoded.
-/

namespace DetachedSchema.Json

/-- A reader of a part of a document. -/
abbrev Reader := StateT (List Char) (Except Fault)

namespace Reader

/-- Whether the character may stand between tokens. -/
def isGap (c : Char) : Bool := c = ' ' || c = '\n' || c = '\t' || c = '\r'

/-- The first character of the next token, which is not taken. -/
def peek : Reader (Option Char) := fun cs =>
  let rest := cs.dropWhile isGap
  .ok (rest.head?, rest)

/-- One character, taken as it is. -/
def take : Reader Unit := fun cs => .ok ((), cs.tail)

/-- The characters of a word one after the other. -/
def word : List Char → Reader Unit
  | [] => pure ()
  | w :: ws => fun cs =>
    match cs with
    | [] => .error .truncated
    | c :: rest => if c = w then word ws rest else .error .malformed

/-- Runs a step until it gives a result; `limit` bounds the number of steps. -/
def loopWithin {σ α : Type} (step : σ → Reader (σ ⊕ α)) : Nat → σ → Reader α
  | 0, _ => throw .truncated
  | limit + 1, s => do
    match ← step s with
    | .inl s => loopWithin step limit s
    | .inr a => return a

/-- Runs a step until it gives a result.  No two steps in a row may leave the text as it is. -/
def loop {σ α : Type} (step : σ → Reader (σ ⊕ α)) (s : σ) : Reader α := fun cs =>
  loopWithin step (2 * cs.length + 2) s cs

/-! ### Texts -/

/-- The value of a digit in base sixteen. -/
def hexValue (c : Char) : Option Nat :=
  if '0' ≤ c ∧ c ≤ '9' then some (c.toNat - '0'.toNat)
  else if 'a' ≤ c ∧ c ≤ 'f' then some (c.toNat - 'a'.toNat + 10)
  else if 'A' ≤ c ∧ c ≤ 'F' then some (c.toNat - 'A'.toNat + 10)
  else none

/-- The value of four digits in base sixteen. -/
def hexUnit (a b c d : Char) : Option Nat := do
  return (((← hexValue a) * 16 + (← hexValue b)) * 16 + (← hexValue c)) * 16 + (← hexValue d)

/-- The character that a single character after a backslash stands for. -/
def simpleEscape (c : Char) : Option Char :=
  match c with
  | '"' => some '"'
  | '\\' => some '\\'
  | '/' => some '/'
  | 'b' => some '\x08'
  | 'f' => some '\x0c'
  | 'n' => some '\n'
  | 'r' => some '\r'
  | 't' => some '\t'
  | _ => none

/-- The fault of a numeric escape with less than four characters left: the text is too short when
they are less than four bytes. -/
def shortUnit (rest : List Char) : Fault :=
  if (String.ofList rest).utf8ByteSize < 4 then .truncated else .malformed

/-- The fault where the second half of a surrogate pair should be. -/
def missingHalf (rest : List Char) : Fault :=
  match rest with
  | [] | ['\\'] => .truncated
  | '\\' :: 'u' :: rest => if rest.length < 4 then shortUnit rest else .malformed
  | _ => .malformed

/-- The characters of a text after its opening quote, and what follows the closing one. -/
def textBody : List Char → Except Fault (List Char × List Char)
  | [] => .error .truncated
  | '"' :: rest => .ok ([], rest)
  | '\\' :: 'u' :: a :: b :: c :: d :: rest =>
    match hexUnit a b c d with
    | none => .error .malformed
    | some high =>
      if 0xDC00 ≤ high ∧ high ≤ 0xDFFF then .error .malformed
      else if 0xD800 ≤ high ∧ high ≤ 0xDBFF then
        match rest with
        | '\\' :: 'u' :: e :: f :: g :: h :: rest =>
          match hexUnit e f g h with
          | none => .error .malformed
          | some low =>
            if 0xDC00 ≤ low ∧ low ≤ 0xDFFF then do
              let (cs, after) ← textBody rest
              return (Char.ofNat (0x10000 + (high - 0xD800) * 0x400 + (low - 0xDC00)) :: cs, after)
            else .error .malformed
        | rest => .error (missingHalf rest)
      else do
        let (cs, after) ← textBody rest
        return (Char.ofNat high :: cs, after)
  | '\\' :: 'u' :: rest => .error (shortUnit rest)
  | ['\\'] => .error .truncated
  | '\\' :: c :: rest =>
    match simpleEscape c with
    | none => .error .malformed
    | some c => do
      let (cs, after) ← textBody rest
      return (c :: cs, after)
  | c :: rest =>
    if c < ' ' then .error .malformed
    else do
      let (cs, after) ← textBody rest
      return (c :: cs, after)

/-- A text after its opening quote. -/
def text : Reader String := fun cs => do
  let (chars, rest) ← textBody cs
  return (String.ofList chars, rest)

/-- What follows a text that is skipped after its opening quote. -/
def skippedText : List Char → Except Fault (List Char)
  | [] => .error .truncated
  | '"' :: rest => .ok rest
  | '\\' :: 'u' :: a :: b :: c :: d :: rest =>
    match hexUnit a b c d with
    | none => .error .malformed
    | some _ => skippedText rest
  | '\\' :: 'u' :: rest => .error (shortUnit rest)
  | ['\\'] => .error .truncated
  | '\\' :: c :: rest =>
    match simpleEscape c with
    | none => .error .malformed
    | some _ => skippedText rest
  | c :: rest => if c < ' ' then .error .malformed else skippedText rest

/-- Passes over a text after its opening quote. -/
def skipText : Reader Unit := fun cs => do return ((), ← skippedText cs)

/-! ### Numbers -/

/-- A number as it is decoded. -/
inductive Number
  | integer (value : Int)
  | real (value : Float)

/-- What a number is called in a fault. -/
def Number.found : Number → Found
  | .integer n => .integer n
  | .real x => .real x.toBits

/-- A run of digits, which may be empty. -/
def digits : Reader (List Char) := fun cs =>
  .ok (cs.takeWhile Char.isDigit, cs.dropWhile Char.isDigit)

/-- The value of a digit in base ten. -/
def digitValue (c : Char) : Nat := c.toNat - '0'.toNat

/-- Digits appended to a number as long as it stays below a bound, and the digits that are left. -/
def extend (bound : Nat) : Nat → List Char → Nat × List Char
  | n, [] => (n, [])
  | n, c :: cs =>
    if 10 * n + digitValue c < bound then extend bound (10 * n + digitValue c) cs else (n, c :: cs)

/-- `x` times ten to a power, by repeated division where the power is below the least one of a
double; nothing when the result is too large. -/
def scaled (x : Float) : Nat → Int → Option Float
  | 0, _ => some x
  | steps + 1, power =>
    if power.natAbs ≤ 308 then
      if power < 0 then some (x / OfScientific.ofScientific 1 false power.natAbs)
      else
        let y := x * OfScientific.ofScientific 1 false power.natAbs
        if y.isInf then none else some y
    else if x == 0 then some x
    else if power > 0 then none
    else scaled (x / 1e308) steps (power + 308)

/-- The number with a sign, the leading digits that fit a word, and a power of ten. -/
def real (negative : Bool) (leading : Nat) (power : Int) : Reader Number :=
  match scaled leading.toUInt64.toFloat (power.natAbs / 308 + 1) power with
  | none => throw .malformed
  | some x => return .real (if negative then -x else x)

/-- The exponent of a number after its mark, and with it the number. -/
def exponent (negative : Bool) (leading : Nat) (power : Int) : Reader Number := do
  let down ← fun cs => match cs with
    | '+' :: rest => .ok (false, rest)
    | '-' :: rest => .ok (true, rest)
    | _ => .ok (false, cs)
  let ds ← digits
  if ds.isEmpty then
    throw (if (← get).isEmpty then .truncated else .malformed)
  let (n, left) := extend (Int32.size / 2) 0 ds
  if left.isEmpty then
    real negative leading (power + if down then -(n : Int) else n)
  else if leading ≠ 0 ∧ !down then throw .malformed
  else return .real (if negative then -0.0 else 0.0)

/-- The fraction of a number after the point, and with it the number. -/
def fraction (negative : Bool) (leading : Nat) (power : Int) : Reader Number := do
  let ds ← digits
  if ds.isEmpty then
    throw (if (← get).isEmpty then .truncated else .malformed)
  let (n, left) := extend UInt64.size leading ds
  let power := power - (ds.length - left.length : Nat)
  match ← get with
  | 'e' :: rest | 'E' :: rest => set rest; exponent negative n power
  | _ => real negative n power

/-- The digits of a whole number: a zero stands alone. -/
def wholeDigits : Reader (List Char) := do
  let ds ← digits
  match ds with
  | [] => throw (if (← get).isEmpty then .truncated else .malformed)
  | '0' :: _ :: _ => throw .malformed
  | ds => return ds

/-- A number after its sign.  One that is not whole, is too large for a word or is a negative zero
is real. -/
def number (negative : Bool) : Reader Number := do
  let ds ← wholeDigits
  let (n, left) := extend UInt64.size 0 ds
  match ← get with
  | '.' :: rest => set rest; fraction negative n left.length
  | 'e' :: rest | 'E' :: rest => set rest; exponent negative n left.length
  | _ =>
    if !left.isEmpty then real negative n left.length
    else if !negative then return .integer n
    else if n ≠ 0 ∧ Int64.minValue.toInt ≤ -n then return .integer (-n)
    else real negative n 0

/-- At least one digit of a number that is skipped. -/
def skipDigits : Reader Unit := do
  if (← digits).isEmpty then throw .malformed

/-- Passes over a number after its sign. -/
def skipNumber : Reader Unit := do
  match ← digits with
  | [] | '0' :: _ :: _ => throw .malformed
  | _ => pure ()
  match ← get with
  | '.' :: rest => set rest; skipDigits
  | _ => pure ()
  match ← get with
  | 'e' :: '+' :: rest | 'E' :: '+' :: rest => set rest; skipDigits
  | 'e' :: '-' :: rest | 'E' :: '-' :: rest => set rest; skipDigits
  | 'e' :: rest | 'E' :: rest => set rest; skipDigits
  | _ => pure ()

/-! ### Members and items -/

/-- The colon between the name and the value of a member. -/
def colon : Reader Unit := do
  match ← peek with
  | some ':' => take
  | some _ => throw .malformed
  | none => throw .truncated

/-- Moves to the next item of a list and says whether there is one.  The closing bracket is left. -/
def nextItem (isFirst : Bool) : Reader Bool := do
  match ← peek with
  | none => throw .truncated
  | some ']' => return false
  | some ',' =>
    if isFirst then return true
    else
      take
      match ← peek with
      | none => throw .truncated
      | some ']' => throw .malformed
      | some _ => return true
  | some _ => if isFirst then return true else throw .malformed

/-- Moves to the next member of a record and says whether there is one.  The opening quote of its
name is taken, a closing brace is left. -/
def nextMember (isFirst : Bool) : Reader Bool := do
  match ← peek with
  | none => throw .truncated
  | some '}' => return false
  | some ',' =>
    if isFirst then throw .malformed
    else
      take
      match ← peek with
      | none => throw .truncated
      | some '"' => take; return true
      | some _ => throw .malformed
  | some '"' => if isFirst then take; return true else throw .malformed
  | some _ => throw .malformed

/-! ### Values that nobody asked for -/

/-- The brackets that open a list or a record. -/
inductive Bracket
  | list
  | record
deriving DecidableEq

/-- Where a skipped value stands: before a value, or after one or after an opening bracket, inside
of the brackets given from the innermost on. -/
inductive Skipping
  | value (open_ : List Bracket)
  | next (open_ : List Bracket) (isFirst : Bool)

/-- Passes over the next token of a skipped value. -/
def skipStep : Skipping → Reader (Skipping ⊕ Unit)
  | .value brackets => do
    match ← peek with
    | none => throw .truncated
    | some 'n' => word "null".toList; return .inl (.next brackets false)
    | some 't' => word "true".toList; return .inl (.next brackets false)
    | some 'f' => word "false".toList; return .inl (.next brackets false)
    | some '-' => take; skipNumber; return .inl (.next brackets false)
    | some '"' => take; skipText; return .inl (.next brackets false)
    | some '[' => take; return .inl (.next (.list :: brackets) true)
    | some '{' => take; return .inl (.next (.record :: brackets) true)
    | some c =>
      if c.isDigit then skipNumber; return .inl (.next brackets false)
      else throw .malformed
  | .next [] _ => return .inr ()
  | .next (.list :: brackets) isFirst => do
    if ← nextItem isFirst then return .inl (.value (.list :: brackets))
    else take; return .inl (.next brackets false)
  | .next (.record :: brackets) isFirst => do
    if ← nextMember isFirst then
      skipText
      colon
      return .inl (.value (.record :: brackets))
    else take; return .inl (.next brackets false)

/-- Passes over a value of any depth. -/
def skip : Reader Unit := loop skipStep (.value [])

/-! ### Values of a kind -/

/-- The fault of a value that is not of the kind that was expected.  Of a list or record only the
bracket is looked at; any other value is read first. -/
def mismatch {α : Type} (expected : String) : Reader α := do
  let wrong (found : Found) : Reader α := throw (.mismatch (.wrongType found expected))
  match ← peek with
  | none => throw .truncated
  | some 'n' => word "null".toList; wrong .null
  | some 't' => word "true".toList; wrong (.bool true)
  | some 'f' => word "false".toList; wrong (.bool false)
  | some '-' => take; wrong (← number true).found
  | some '"' => take; wrong (.text (← text))
  | some '[' => wrong .list
  | some '{' => wrong .record
  | some c => if c.isDigit then wrong (← number false).found else throw .malformed

/-- A text. -/
def textValue (expected : String) : Reader String := do
  match ← peek with
  | some '"' => take; text
  | _ => mismatch expected

/-- A truth value. -/
def boolValue : Reader Bool := do
  match ← peek with
  | some 't' => word "true".toList; return true
  | some 'f' => word "false".toList; return false
  | _ => mismatch "a boolean"

/-- A whole number within bounds. -/
def integerValue (low high : Int) (expected : String) : Reader Int := do
  let check (n : Number) : Reader Int :=
    match n with
    | .integer n =>
      if low ≤ n ∧ n ≤ high then return n else throw (.mismatch (.outOfRange n expected))
    | n => throw (.mismatch (.wrongType n.found expected))
  match ← peek with
  | some '-' => take; check (← number true)
  | some c => if c.isDigit then check (← number false) else mismatch expected
  | none => throw .truncated

/-- The word for nothing. -/
def nullValue (expected : String) : Reader Unit := do
  match ← peek with
  | some 'n' => word "null".toList
  | _ => mismatch expected

/-- Nothing, or a value. -/
def optional {α : Type} (value : Reader α) : Reader (Option α) := do
  match ← peek with
  | some 'n' => word "null".toList; return none
  | _ => return some (← value)

/-- A list of values. -/
def listOf {α : Type} (value : Reader α) : Reader (List α) := do
  match ← peek with
  | some '[' =>
    take
    loop (fun (isFirst, done) => do
      if ← nextItem isFirst then return .inl (false, (← value) :: done)
      else take; return .inr done.reverse) (true, [])
  | _ => mismatch "a sequence"

/-- One of several names, which may also be written as a record with that one name and nothing in
it. -/
def oneOf {α : Type} (variants : List (String × α)) : Reader α := do
  let find (name : String) : Reader α :=
    match variants.lookup name with
    | some a => return a
    | none => throw (.mismatch (.unknownVariant name (variants.map (·.1))))
  match ← peek with
  | some '"' => take; find (← text)
  | some '{' =>
    take
    match ← peek with
    | some '"' => take
    | some _ => throw .malformed
    | none => throw .truncated
    let a ← find (← text)
    colon
    nullValue "unit"
    match ← peek with
    | some '}' => take; return a
    | some _ => throw .malformed
    | none => throw .truncated
  | some _ => throw .malformed
  | none => throw .truncated

/-- A whole document: a value with nothing but gaps around it. -/
def run {α : Type} (value : Reader α) (s : String) : Except Fault α := do
  let (a, rest) ← value s.toList
  if (rest.dropWhile isGap).isEmpty then return a else throw .malformed

end Reader

end DetachedSchema.Json
