/-!
# SHA-256

The digest of FIPS 180-4.  A message is padded to whole blocks of sixteen words; every block is
mixed into a state of eight words by sixty-four rounds, whose words come from a window that slides
over the message schedule.
-/

namespace DetachedSchema.Digest.Sha256

/-- The state between two rounds. -/
structure State where
  (a b c d e f g h : UInt32)
deriving DecidableEq

/-- The words of a state added one by one. -/
instance : Add State where
  add s t :=
    ⟨s.a + t.a, s.b + t.b, s.c + t.c, s.d + t.d, s.e + t.e, s.f + t.f, s.g + t.g, s.h + t.h⟩

/-- The state before the first block: the fractions of the square roots of the first eight
primes. -/
def start : State :=
  ⟨0x6a09e667, 0xbb67ae85, 0x3c6ef372, 0xa54ff53a,
   0x510e527f, 0x9b05688c, 0x1f83d9ab, 0x5be0cd19⟩

/-- The constants of the rounds: the fractions of the cube roots of the first sixty-four primes. -/
def constants : List UInt32 :=
  [0x428a2f98, 0x71374491, 0xb5c0fbcf, 0xe9b5dba5, 0x3956c25b, 0x59f111f1, 0x923f82a4, 0xab1c5ed5,
   0xd807aa98, 0x12835b01, 0x243185be, 0x550c7dc3, 0x72be5d74, 0x80deb1fe, 0x9bdc06a7, 0xc19bf174,
   0xe49b69c1, 0xefbe4786, 0x0fc19dc6, 0x240ca1cc, 0x2de92c6f, 0x4a7484aa, 0x5cb0a9dc, 0x76f988da,
   0x983e5152, 0xa831c66d, 0xb00327c8, 0xbf597fc7, 0xc6e00bf3, 0xd5a79147, 0x06ca6351, 0x14292967,
   0x27b70a85, 0x2e1b2138, 0x4d2c6dfc, 0x53380d13, 0x650a7354, 0x766a0abb, 0x81c2c92e, 0x92722c85,
   0xa2bfe8a1, 0xa81a664b, 0xc24b8b70, 0xc76c51a3, 0xd192e819, 0xd6990624, 0xf40e3585, 0x106aa070,
   0x19a4c116, 0x1e376c08, 0x2748774c, 0x34b0bcb5, 0x391c0cb3, 0x4ed8aa4a, 0x5b9cca4f, 0x682e6ff3,
   0x748f82ee, 0x78a5636f, 0x84c87814, 0x8cc70208, 0x90befffa, 0xa4506ceb, 0xbef9a3f7, 0xc67178f2]

/-- The word turned right by a number of bits. -/
def rotate (x : UInt32) (n : UInt32) : UInt32 := (x >>> n) ||| (x <<< (32 - n))

/-- The next word of the schedule after the sixteen of the window. -/
def scheduled (w : Vector UInt32 16) : UInt32 :=
  let low := rotate w[1] 7 ^^^ rotate w[1] 18 ^^^ (w[1] >>> 3)
  let high := rotate w[14] 17 ^^^ rotate w[14] 19 ^^^ (w[14] >>> 10)
  w[0] + low + w[9] + high

/-- The window moved on by one word. -/
def slide (w : Vector UInt32 16) : Vector UInt32 16 :=
  let next := scheduled w
  Vector.ofFn fun i => if h : i.val + 1 < 16 then w[i.val + 1] else next

/-- One round, which mixes a constant and a word of the schedule into the state. -/
def round (s : State) (constant word : UInt32) : State :=
  let choice := (s.e &&& s.f) ^^^ (~~~s.e &&& s.g)
  let mixed := rotate s.e 6 ^^^ rotate s.e 11 ^^^ rotate s.e 25
  let first := s.h + mixed + choice + constant + word
  let majority := (s.a &&& s.b) ^^^ (s.a &&& s.c) ^^^ (s.b &&& s.c)
  let second := (rotate s.a 2 ^^^ rotate s.a 13 ^^^ rotate s.a 22) + majority
  ⟨first + second, s.a, s.b, s.c, s.d + first, s.e, s.f, s.g⟩

/-- All rounds of one block, the block being the first window. -/
def compress (s : State) (block : Vector UInt32 16) : State :=
  s + (constants.foldl (fun (t, w) k => (round t k w[0], slide w)) (s, block)).1

/-- The last digits of a number in a base, the highest first. -/
def digitsIn (base : Nat) : Nat → Nat → List Nat
  | 0, _ => []
  | count + 1, n => digitsIn base count (n / base) ++ [n % base]

/-- The message with a marking bit, zeros up to eight bytes before the end of a block, and its
length in bits. -/
def pad (message : List UInt8) : List UInt8 :=
  let size := message.length
  message ++ 0x80 :: List.replicate ((119 - size % 64) % 64) 0
    ++ (digitsIn 256 8 (8 * size)).map UInt8.ofNat

/-- The words of which the bytes are made, four bytes each. -/
def words : List UInt8 → List UInt32
  | a :: b :: c :: d :: rest =>
    ((a.toUInt32 <<< 24) ||| (b.toUInt32 <<< 16) ||| (c.toUInt32 <<< 8) ||| d.toUInt32)
      :: words rest
  | _ => []

/-- The words of a message mixed into a state, sixteen at a time; `count` bounds the blocks. -/
def absorb : Nat → State → List UInt32 → State
  | 0, s, _ => s
  | count + 1, s, ws =>
    let taken := ws.take 16
    if h : taken.length = 16 then
      let block : Vector UInt32 16 := Vector.ofFn fun i => taken.get ⟨i.val, by omega⟩
      absorb count (compress s block) (ws.drop 16)
    else s

/-- The eight words of the digest of a message. -/
def digest (message : List UInt8) : State :=
  let ws := words (pad message)
  absorb (ws.length / 16) start ws

/-- The digest as sixty-four digits in lower case. -/
def text (message : List UInt8) : String :=
  let s := digest message
  String.ofList ([s.a, s.b, s.c, s.d, s.e, s.f, s.g, s.h].flatMap fun w =>
    (digitsIn 16 8 w.toNat).map Nat.digitChar)

end DetachedSchema.Digest.Sha256
