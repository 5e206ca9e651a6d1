/-!
# Shortest decimals

The decimal number with the fewest digits that reads back as a given binary number.  A binary
number stands for all reals that round to it, an interval around it; on each decimal grid only the
two neighbours of the number have to be tried, from the coarsest grid on.
-/

namespace DetachedSchema

/-- The number `digits * 10 ^ exponent`. -/
structure Decimal where
  digits : Nat
  exponent : Int
deriving DecidableEq

namespace Decimal

/-- The positive number `mantissa * 2 ^ exponent` among its neighbours. -/
structure Binary where
  mantissa : Nat
  exponent : Int
  /-- Whether the step to the next smaller number is half the step to the next larger one. -/
  narrow : Bool
deriving DecidableEq

/-- How `d * 10 ^ t` compares with `n * 2 ^ r`. -/
def compareScaled (d : Nat) (t : Int) (n : Nat) (r : Int) : Ordering :=
  compare (d * Nat.pow 10 t.toNat * Nat.pow 2 (-r).toNat)
    (n * Nat.pow 2 r.toNat * Nat.pow 10 (-t).toNat)

namespace Binary

/-- The whole number of units `10 ^ t` in the number. -/
def floorOn (b : Binary) (t : Int) : Nat :=
  b.mantissa * Nat.pow 2 b.exponent.toNat * Nat.pow 10 (-t).toNat /
    (Nat.pow 2 (-b.exponent).toNat * Nat.pow 10 t.toNat)

/-- Whether `d * 10 ^ t` rounds to the number.  The ends of the interval do so when the mantissa is
even. -/
def holds (b : Binary) (d : Nat) (t : Int) : Bool :=
  let low := compareScaled d t (4 * b.mantissa - (if b.narrow then 1 else 2)) (b.exponent - 2)
  let high := compareScaled d t (4 * b.mantissa + 2) (b.exponent - 2)
  if b.mantissa % 2 = 0 then low.isGE && high.isLE else low.isGT && high.isLT

/-- The power of ten of the leading digit.  No double lies below `10 ^ -400`. -/
def leading (b : Binary) : Int :=
  ((Nat.toDigits 10 (b.floorOn (-400))).length : Int) - 401

/-- The neighbour of the number on the grid `10 ^ t` that rounds to it, the nearer one of two. -/
def neighbour? (b : Binary) (t : Int) : Option Decimal :=
  let below := b.floorOn t
  match b.holds below t, b.holds (below + 1) t with
  | true, false => some ⟨below, t⟩
  | false, true => some ⟨below + 1, t⟩
  | false, false => none
  | true, true =>
    match compareScaled (2 * below + 1) t b.mantissa (b.exponent + 1) with
    | .gt => some ⟨below, t⟩
    | .lt => some ⟨below + 1, t⟩
    | .eq => some ⟨if below % 2 = 0 then below else below + 1, t⟩

/-- The decimal with the fewest digits that rounds to the number; seventeen always suffice for a
double. -/
def shortest (b : Binary) : Decimal :=
  ((List.range 17).findSome? fun (n : Nat) => b.neighbour? (b.leading - (n : Int))).getD ⟨0, 0⟩

end Binary

/-- The magnitude of a finite double given by its bits, nothing for a zero. -/
def Binary.ofBits? (bits : UInt64) : Option Binary :=
  let exponent : Nat := (bits >>> 52).toNat % 2048
  let fraction : Nat := (bits &&& 0xFFFFFFFFFFFFF).toNat
  if exponent = 0 then if fraction = 0 then none else some ⟨fraction, -1074, false⟩
  else some ⟨fraction + 0x10000000000000, (exponent : Int) - 1075, fraction = 0 && exponent > 1⟩

end Decimal

end DetachedSchema
