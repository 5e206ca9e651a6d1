import DetachedSchema.Yaml.Glyph

/-!
# Tags

A tag says what kind of value a node holds.  It is a sequence of bytes: each of them can be written
as a percent sign and two digits, and together they need not be the encoding of a text.
-/

namespace DetachedSchema.Yaml

/-- A tag by its bytes. -/
structure Tag where
  bytes : List UInt8
deriving DecidableEq, Inhabited

namespace Tag

open Glyph

/-- The tag of a text. -/
def ofText (s : String) : Tag := ⟨s.toUTF8.toList⟩

/-- The tag of nothing. -/
def null : Tag := ofText "tag:yaml.org,2002:null"

/-- The tag of a truth value. -/
def bool : Tag := ofText "tag:yaml.org,2002:bool"

/-- The tag of a whole number. -/
def int : Tag := ofText "tag:yaml.org,2002:int"

/-- One tag behind the other. -/
def append (front back : Tag) : Tag := ⟨front.bytes ++ back.bytes⟩

/-- Whether the tag has no bytes. -/
def isEmpty (t : Tag) : Bool := t.bytes.isEmpty

/-- The tag up to a zero, which ends it. -/
def untilZero (t : Tag) : Tag := ⟨t.bytes.takeWhile (· ≠ 0)⟩

/-- The name in a tag that starts with an exclamation mark: what follows the mark, or the mark when
nothing does. -/
def name? (t : Tag) : Option String :=
  match t.bytes with
  | [] => none
  | mark :: rest =>
    if mark = '!'.toUInt8 then
      String.fromUTF8? ⟨(if rest.isEmpty then [mark] else rest).toArray⟩
    else none

/-! ### Reading -/

/-- Whether the character may be part of a tag. -/
def isTagChar (verbatim : Bool) (c : Char) : Bool :=
  isNameChar c || ";/?:@&=+$.%!~*'()".toList.contains c || (verbatim && ",[]".toList.contains c)

/-- The value of a digit in base sixteen. -/
def hexDigit? (c : Char) : Option UInt8 :=
  if c.isDigit then some (c.toUInt8 - '0'.toUInt8)
  else if 'a' ≤ c ∧ c ≤ 'f' then some (c.toUInt8 - 'a'.toUInt8 + 10)
  else if 'A' ≤ c ∧ c ≤ 'F' then some (c.toUInt8 - 'A'.toUInt8 + 10)
  else none

/-- An escaped byte and what follows. -/
def escapedByte : List Glyph → Option (UInt8 × List Glyph)
  | sign :: high :: low :: rest => do
    guard (sign.char = '%')
    return (16 * (← hexDigit? high.char) + (← hexDigit? low.char), rest)
  | _ => none

/-- How many bytes follow the first one of an encoded character. -/
def following (first : UInt8) : Option Nat :=
  if first < 0x80 then some 0
  else if first >>> 5 = 0x06 then some 1
  else if first >>> 4 = 0x0E then some 2
  else if first >>> 3 = 0x1E then some 3
  else none

/-- A number of escaped bytes that follow the first one of an encoded character. -/
def escapedTail : Nat → List Glyph → Option (List UInt8 × List Glyph)
  | 0, gs => some ([], gs)
  | count + 1, gs => do
    let (b, rest) ← escapedByte gs
    guard (b >>> 6 = 0x02)
    let (bs, rest) ← escapedTail count rest
    return (b :: bs, rest)

/-- The escaped bytes of a character, which need not be a valid one. -/
def escapedChar (gs : List Glyph) : Option (List UInt8 × List Glyph) := do
  let (b, rest) ← escapedByte gs
  let (bs, rest) ← escapedTail (← following b) rest
  return (b :: bs, rest)

/-- The bytes of the tag at the front of a text, and what follows; `limit` bounds the number of
characters. -/
def read (verbatim : Bool) : Nat → List Glyph → Option (List UInt8 × List Glyph)
  | 0, _ => none
  | limit + 1, gs =>
    let c := char₀ gs
    if !isTagChar verbatim c then some ([], gs)
    else do
      let (bs, rest) ← if c = '%' then escapedChar gs else some ([c.toUInt8], gs.drop 1)
      let (more, rest) ← read verbatim limit rest
      return (bs ++ more, rest)

end Tag

end DetachedSchema.Yaml
