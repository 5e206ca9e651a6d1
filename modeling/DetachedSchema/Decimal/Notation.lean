import DetachedSchema.Decimal.Shortest

/-!
# Decimal notation

How the digits of a decimal are laid out as text: positional notation in a range of exponents and
scientific notation outside it.
-/

namespace DetachedSchema.Decimal

/-- The choices of a notation: the exponents of the leading digit that are written positionally. -/
structure Notation where
  lowest : Int
  highest : Int

/-- Numbers are positional from `0.00001` up to sixteen digits before the point. -/
def plain : Notation := ⟨-5, 15⟩

/-- The digits of a decimal without the zeros at the end, and the power of ten of the first one. -/
def leadingDigits (d : Decimal) : List Char × Int :=
  let all := Nat.toDigits 10 d.digits
  let kept := (all.reverse.dropWhile (· = '0')).reverse
  (kept, d.exponent + all.length - 1)

/-- The text of a decimal.  Positional text has at least one digit on each side of the point;
scientific text has one digit before the point, and the exponent has a sign. -/
def Notation.write (n : Notation) (d : Decimal) : List Char :=
  let (digits, leading) := d.leadingDigits
  if n.lowest ≤ leading && leading ≤ n.highest then
    if leading < 0 then
      ['0', '.'] ++ List.replicate (-leading - 1).toNat '0' ++ digits
    else
      let whole := digits.take (leading.toNat + 1)
      let rest := digits.drop (leading.toNat + 1)
      whole ++ List.replicate (leading.toNat + 1 - whole.length) '0' ++ '.' ::
        (if rest.isEmpty then ['0'] else rest)
  else
    digits.take 1 ++ (if digits.length > 1 then '.' :: digits.drop 1 else []) ++
      'e' :: (if leading < 0 then '-' else '+') :: Nat.toDigits 10 leading.natAbs

/-- The text of a finite double given by its bits. -/
def Notation.writeBits (n : Notation) (bits : UInt64) : String :=
  let sign := if bits >>> 63 = 1 then ['-'] else []
  String.ofList (sign ++ match Binary.ofBits? bits with
    | none => ['0', '.', '0']
    | some b => n.write b.shortest)

end DetachedSchema.Decimal
