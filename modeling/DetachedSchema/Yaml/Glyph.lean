/-!
# Glyphs

The characters of a YAML text with their places in it.  The last glyph of every text is an end mark,
so that a reader always has a glyph to look at.
-/

namespace DetachedSchema.Yaml

/-- A character and its place: how many bytes are before it in the text, on which line it stands,
and how many characters of that line are before it. -/
structure Glyph where
  char : Char
  index : Nat
  line : Nat
  column : Nat
deriving Inhabited, DecidableEq

/-- The character of the end mark, which no text may hold. -/
def endMark : Char := '\x00'

/-- Whether the character ends a line. -/
def isBreak (c : Char) : Bool :=
  c = '\n' || c = '\r' || c = '\x85' || c = '\u2028' || c = '\u2029'

/-- Whether the character is a space or a tab. -/
def isBlank (c : Char) : Bool := c = ' ' || c = '\t'

/-- Whether the character ends a line or the text. -/
def isBreakOrEnd (c : Char) : Bool := isBreak c || c = endMark

/-- Whether the character is a space, a tab, or ends a line or the text. -/
def isBlankOrEnd (c : Char) : Bool := isBlank c || isBreakOrEnd c

/-- Whether the character may be part of the name of an anchor, of a handle or of a directive. -/
def isNameChar (c : Char) : Bool :=
  ('a' ≤ c && c ≤ 'z') || ('A' ≤ c && c ≤ 'Z') || c.isDigit || c = '-' || c = '_'

/-- Whether the character may be part of a text at all. -/
def isAllowed (c : Char) : Bool :=
  let n := c.toNat
  n = 0x09 || n = 0x0A || n = 0x0D || (0x20 ≤ n && n ≤ 0x7E) || n = 0x85
    || (0xA0 ≤ n && n ≤ 0xD7FF) || (0xE000 ≤ n && n ≤ 0xFFFD) || 0x10000 ≤ n

namespace Glyph

/-- The glyphs of a text from a place on.  A carriage return and a line feed after it end one line
together. -/
def place : Nat → Nat → Nat → List Char → List Glyph
  | index, line, column, [] => [⟨endMark, index, line, column⟩]
  | index, line, column, [c] =>
    ⟨c, index, line, column⟩ ::
      if isBreak c then place (index + c.utf8Size) (line + 1) 0 []
      else place (index + c.utf8Size) line (column + 1) []
  | index, line, column, c :: d :: rest =>
    ⟨c, index, line, column⟩ ::
      if isBreak c && !(c = '\r' && d = '\n') then
        place (index + c.utf8Size) (line + 1) 0 (d :: rest)
      else place (index + c.utf8Size) line (column + 1) (d :: rest)

/-- The glyphs of a text, if it holds no character that a text may not. -/
def ofText? (text : List Char) : Option (List Glyph) :=
  if text.all isAllowed then some (place 0 0 0 text) else none

/-- The first of the glyphs; the end mark when there is none. -/
def first (gs : List Glyph) : Glyph := gs.headD ⟨endMark, 0, 0, 0⟩

/-- The first character. -/
def char₀ (gs : List Glyph) : Char := (first gs).char

/-- The character after a number of others. -/
def charAt (gs : List Glyph) (n : Nat) : Char := char₀ (gs.drop n)

/-- The characters of glyphs. -/
def chars (gs : List Glyph) : List Char := gs.map char

/-- The text after the end of a line, if it ends here, and the break as it is read: all ends of
lines are line feeds but the separators of lines and of paragraphs, which stay. -/
def lineEnd? : List Glyph → Option (Char × List Glyph)
  | g :: rest =>
    if g.char = '\r' ∧ char₀ rest = '\n' then some ('\n', rest.drop 1)
    else if g.char = '\u2028' ∨ g.char = '\u2029' then some (g.char, rest)
    else if isBreak g.char then some ('\n', rest)
    else none
  | [] => none

/-- The text without the spaces and tabs in front. -/
def dropBlanks (gs : List Glyph) : List Glyph := gs.dropWhile (isBlank ·.char)

/-- The text from the end of the line on. -/
def dropLine (gs : List Glyph) : List Glyph := gs.dropWhile (!isBreakOrEnd ·.char)

/-- Whether three equal characters stand at the start of a line and a blank or an end follows: the
marks for the start and the end of a document. -/
def isMark (c : Char) (gs : List Glyph) : Bool :=
  (first gs).column = 0 && charAt gs 0 = c && charAt gs 1 = c && charAt gs 2 = c
    && isBlankOrEnd (charAt gs 3)

/-- Whether the start or the end of a document is marked here. -/
def isDocumentMark (gs : List Glyph) : Bool := isMark '-' gs || isMark '.' gs

end Glyph

end DetachedSchema.Yaml
