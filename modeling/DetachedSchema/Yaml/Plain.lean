/-!
# Plain scalars

What the text of a plain scalar stands for: nothing, a truth value, a number, or else itself.  A
text of several digits that starts with a zero is no number.
-/

namespace DetachedSchema.Yaml.Plain

/-- Whether the text is a word for nothing. -/
def isNull (s : String) : Bool := s = "null" || s = "Null" || s = "NULL" || s = "~"

/-- The truth value that the text is a word for. -/
def bool? (s : String) : Option Bool :=
  if s = "true" || s = "True" || s = "TRUE" then some true
  else if s = "false" || s = "False" || s = "FALSE" then some false
  else none

/-! ### Whole numbers -/

/-- The value of a digit in a base. -/
def digit? (base : Nat) (c : Char) : Option Nat :=
  let value :=
    if c.isDigit then c.toNat - '0'.toNat
    else if 'a' ≤ c ∧ c ≤ 'z' then c.toNat - 'a'.toNat + 10
    else if 'A' ≤ c ∧ c ≤ 'Z' then c.toNat - 'A'.toNat + 10
    else base
  if value < base then some value else none

/-- The value of digits in a base; there has to be one. -/
def natural? (base : Nat) (cs : List Char) : Option Nat :=
  if cs.isEmpty then none
  else cs.foldl (fun n c => do return (← n) * base + (← digit? base c)) (some 0)

/-- The base that a mark in front of digits announces, and the digits. -/
def based? : List Char → Option (Nat × List Char)
  | '0' :: 'x' :: cs => some (16, cs)
  | '0' :: 'o' :: cs => some (8, cs)
  | '0' :: 'b' :: cs => some (2, cs)
  | _ => none

/-- The text without a plus sign in front. -/
def withoutPlus : List Char → List Char
  | '+' :: cs => cs
  | cs => cs

/-- Whether the text is made of several digits of which the first is a zero, after a sign or not. -/
def hasLeadingZero (cs : List Char) : Bool :=
  let digits := match cs with
    | '-' :: ds | '+' :: ds => ds
    | ds => ds
  match digits with
  | '0' :: d :: ds => (d :: ds).all Char.isDigit
  | _ => false

/-- A number without a minus sign. -/
def unsigned? (cs : List Char) : Option Nat :=
  match based? (withoutPlus cs) with
  | some (base, digits) => natural? base digits
  | none => if hasLeadingZero cs then none else natural? 10 (withoutPlus cs)

/-- A number after its minus sign. -/
def negative? (cs : List Char) : Option Int :=
  match based? cs with
  | some (base, digits) => do return -(← natural? base digits : Nat)
  | none => if hasLeadingZero cs then none else do return -(← natural? 10 cs : Nat)

/-- A number with or without a sign. -/
def signed? : List Char → Option Int
  | '-' :: cs => negative? cs
  | cs => do return (← unsigned? cs : Nat)

/-- Whether the text is a whole number that fits 128 bits. -/
def isWhole (cs : List Char) : Bool :=
  match cs with
  | '-' :: _ => (signed? cs).any (-(Nat.pow 2 127 : Int) ≤ ·)
  | _ => (unsigned? cs).any (· < Nat.pow 2 128)

/-! ### Other numbers -/

/-- The exponent of a number after its digits, if it is well formed. -/
def exponent? : List Char → Option Int
  | [] => some 0
  | 'e' :: cs | 'E' :: cs =>
    match cs with
    | '-' :: ds => do return -(← natural? 10 ds : Nat)
    | '+' :: ds | ds => do return (← natural? 10 ds : Nat)
  | _ => none

/-- The digits of a number and the power of ten they are multiplied by, after its sign. -/
def decimal? (cs : List Char) : Option (List Char × Int) := do
  let (whole, rest) := cs.span Char.isDigit
  let (fraction, rest) := match rest with
    | '.' :: rest => rest.span Char.isDigit
    | rest => ([], rest)
  if whole.isEmpty && fraction.isEmpty then none
  return (whole ++ fraction, (← exponent? rest) - fraction.length)

/-- Whether `digits * 10 ^ power` rounds to a finite double: it is nearer to the greatest one than
to the next power of two. -/
def isFinite (digits : List Char) (power : Int) : Bool :=
  let digits := digits.dropWhile (· = '0')
  let size : Int := digits.length + power
  let n := (natural? 10 digits).getD 0
  if digits.isEmpty || size < 300 then true
  else if size > 310 then false
  else n * Nat.pow 10 power.toNat < (Nat.pow 2 1024 - Nat.pow 2 970) * Nat.pow 10 (-power).toNat

/-- Whether the text is a number with a fraction or an exponent, an infinity or not a number. -/
def isReal (cs : List Char) : Bool :=
  let special (words : List String) (cs : List Char) : Bool := words.contains (String.ofList cs)
  special [".nan", ".NaN", ".NAN"] cs
    || special [".inf", ".Inf", ".INF"] (withoutPlus cs)
    || special ["-.inf", "-.Inf", "-.INF"] cs
    || match cs with
      | '+' :: ds | '-' :: ds | ds => (decimal? ds).any fun (digits, power) => isFinite digits power

/-- Whether the text is anything but itself when it is written plainly. -/
def isAmbiguous (s : String) : Bool :=
  let cs := s.toList
  s = "" || isNull s || (bool? s).isSome || isWhole cs || isReal cs || hasLeadingZero cs

end DetachedSchema.Yaml.Plain
