import DetachedSchema.Yaml.Glyph

/-!
# Scalars

How the text of a scalar is found in its notation: plain, in single or double quotes, or as a block
of lines that are kept or folded.

Every step of a loop over a text passes a character at least.  The argument `limit` is the number of
steps that a loop may take; the length of the text is enough.
-/

namespace DetachedSchema.Yaml

/-- How a scalar is written. -/
inductive Style
  | plain
  | singleQuoted
  | doubleQuoted
  | literal
  | folded
deriving DecidableEq, Inhabited

namespace Scalar

open Glyph

/-! ### Gaps between words -/

/-- A run of blanks and line ends: the blanks when no line ends, and all the ends of lines. -/
structure Gap where
  blanks : List Char
  breaks : List Char

/-- The text that a gap stands for.  A single end of line is folded to a space, and of several the
first one is left out; separators of lines and paragraphs are not folded. -/
def Gap.text (g : Gap) : List Char :=
  match g.breaks with
  | [] => g.blanks
  | '\n' :: [] => [' ']
  | '\n' :: more => more
  | all => all

/-- A run of blanks and ends of lines.  A tab left of column `least` on a later line is refused. -/
def gap (least : Int) : Nat → List Char → List Char → List Glyph → Option (Gap × List Glyph)
  | 0, _, _, _ => none
  | limit + 1, blanks, breaks, gs =>
    let g := first gs
    if isBlank g.char then
      if !breaks.isEmpty && g.column < least && g.char = '\t' then none
      else gap least limit (if breaks.isEmpty then g.char :: blanks else blanks) breaks (gs.drop 1)
    else
      match lineEnd? gs with
      | some (c, rest) => gap least limit [] (c :: breaks) rest
      | none => some (⟨blanks.reverse, breaks.reverse⟩, gs)

/-- The gap at the front of a text. -/
def gapAt (least : Int) (limit : Nat) (gs : List Glyph) : Option (Gap × List Glyph) :=
  gap least limit [] [] gs

/-! ### Plain scalars -/

/-- Whether the character ends a plain scalar inside of brackets. -/
def isFlowMark (c : Char) : Bool := c = ',' || c = '[' || c = ']' || c = '\x7b' || c = '\x7d'

/-- The front of a text up to a blank or to what ends a plain scalar. -/
def plainWord (inFlow : Bool) : List Glyph → Option (List Char × List Glyph)
  | [] => some ([], [])
  | g :: rest =>
    if isBlankOrEnd g.char then some ([], g :: rest)
    else if inFlow && g.char = ':' && (isFlowMark (char₀ rest) || char₀ rest = '?') then none
    else if (g.char = ':' && isBlankOrEnd (char₀ rest)) || (inFlow && isFlowMark g.char) then
      some ([], g :: rest)
    else do
      let (cs, after) ← plainWord inFlow rest
      return (g.char :: cs, after)

/-- A plain scalar: its text, what follows it, and whether an end of line is the last thing in it.
`least` is the least column of a further line; `done` holds the text so far in reverse and `pending`
the gap after it. -/
def plain (inFlow : Bool) (least : Int) :
    Nat → List Char → List Char → Bool → List Glyph → Option (List Char × List Glyph × Bool)
  | 0, _, _, _, _ => none
  | limit + 1, done, pending, broken, gs =>
    if isDocumentMark gs || char₀ gs = '#' then some (done.reverse, gs, broken)
    else do
      let (word, rest) ← plainWord inFlow gs
      let (done, pending, broken) :=
        if word.isEmpty then (done, pending, broken)
        else (word.reverse ++ (pending.reverse ++ done), [], false)
      if !(isBlank (char₀ rest) || isBreak (char₀ rest)) then return (done.reverse, rest, broken)
      else
        let (g, rest) ← gapAt least limit rest
        let broken := !g.breaks.isEmpty
        if !inFlow && (first rest).column < least then return (done.reverse, rest, broken)
        else plain inFlow least limit done (pending ++ g.text) broken rest

/-! ### Quoted scalars -/

/-- The value of digits in base sixteen. -/
def hexNumber? (cs : List Char) : Option Nat :=
  cs.foldl (fun n c => do
    let n ← n
    let d ← if c.isDigit then some (c.toNat - '0'.toNat)
      else if 'a' ≤ c ∧ c ≤ 'f' then some (c.toNat - 'a'.toNat + 10)
      else if 'A' ≤ c ∧ c ≤ 'F' then some (c.toNat - 'A'.toNat + 10)
      else none
    return 16 * n + d) (some 0)

/-- The character that a single character after a backslash stands for. -/
def simpleEscape (c : Char) : Option Char :=
  match c with
  | '0' => some '\x00'
  | 'a' => some '\x07'
  | 'b' => some '\x08'
  | 't' | '\t' => some '\t'
  | 'n' => some '\n'
  | 'v' => some '\x0b'
  | 'f' => some '\x0c'
  | 'r' => some '\r'
  | 'e' => some '\x1b'
  | ' ' => some ' '
  | '"' => some '"'
  | '/' => some '/'
  | '\\' => some '\\'
  | 'N' => some '\x85'
  | '_' => some '\xa0'
  | 'L' => some '\u2028'
  | 'P' => some '\u2029'
  | _ => none

/-- How many digits follow the mark of a numeric escape. -/
def escapeWidth (c : Char) : Option Nat :=
  match c with
  | 'x' => some 2
  | 'u' => some 4
  | 'U' => some 8
  | _ => none

/-- The character of an escape after its backslash, and what follows. -/
def escape? (gs : List Glyph) : Option (Char × List Glyph) :=
  match escapeWidth (char₀ gs) with
  | some width => do
    let n ← hexNumber? (chars ((gs.drop 1).take width))
    if (0xD800 ≤ n ∧ n ≤ 0xDFFF) ∨ n > 0x10FFFF then none
    else some (Char.ofNat n, gs.drop (width + 1))
  | none => do return (← simpleEscape (char₀ gs), gs.drop 1)

/-- The inside of a quoted scalar up to a blank, an end of line or the closing quote.  The last
component says whether an escaped end of line was passed. -/
def quotedWord (quote : Char) :
    Nat → List Char → List Glyph → Option (List Char × List Glyph × Bool)
  | 0, _, _ => none
  | limit + 1, done, gs =>
    let c := char₀ gs
    if isBlankOrEnd c then some (done, gs, false)
    else if quote = '\'' ∧ c = '\'' ∧ charAt gs 1 = '\'' then
      quotedWord quote limit ('\'' :: done) (gs.drop 2)
    else if c = quote then some (done, gs, false)
    else if quote = '"' ∧ c = '\\' then
      match lineEnd? (gs.drop 1) with
      | some (_, rest) => some (done, rest, true)
      | none => do
        let (c, rest) ← escape? (gs.drop 1)
        quotedWord quote limit (c :: done) rest
    else quotedWord quote limit (c :: done) (gs.drop 1)

/-- A scalar in quotes after the opening one, `done` being its text so far in reverse. -/
def quoted (quote : Char) : Nat → List Char → List Glyph → Option (List Char × List Glyph)
  | 0, _, _ => none
  | limit + 1, done, gs => do
    if isDocumentMark gs || char₀ gs = endMark then none
    let (done, rest, escaped) ← quotedWord quote limit done gs
    if !escaped && char₀ rest = quote then return (done.reverse, rest.drop 1)
    let (g, rest) ← gapAt 0 limit rest
    -- After an escaped end of line blanks are left out and only further ends of lines count.
    let text := if escaped then g.breaks else g.text
    quoted quote limit (text.reverse ++ done) rest

/-! ### Block scalars -/

/-- What happens to the ends of lines at the end of a block. -/
inductive Chomping
  | clip
  | strip
  | keep
deriving DecidableEq

/-- The empty lines at the front of a text and the indentation of the lines.  With no indentation
given, `indent = 0`, it is that of the most indented of these lines and the first that is not
empty. -/
def blockBreaks (indent : Nat) :
    Nat → Nat → List Char → List Glyph → Option (Nat × List Char × List Glyph)
  | 0, _, _, _ => none
  | limit + 1, deepest, breaks, gs =>
    let rest := gs.dropWhile fun g => g.char = ' ' && (indent = 0 || g.column < indent)
    let g := first rest
    let deepest := max deepest g.column
    if (indent = 0 || g.column < indent) && g.char = '\t' then none
    else
      match lineEnd? rest with
      | some (c, rest) => blockBreaks indent limit deepest (c :: breaks) rest
      | none => some (deepest, breaks.reverse, rest)

/-- The lines of a block.  `ended` is the end of the line before, `breaks` the empty lines after it,
and `wasBlank` tells whether that line started with a blank. -/
def blockLines (isFolded : Bool) (indent : Nat) :
    Nat → List Char → List Char → List Char → Bool → List Glyph →
      Option (List Char × List Char × List Char × List Glyph)
  | 0, _, _, _, _, _ => none
  | limit + 1, done, ended, breaks, wasBlank, gs =>
    if (first gs).column = indent ∧ char₀ gs ≠ endMark then do
      let isBlankNow := isBlank (char₀ gs)
      let joint :=
        if isFolded && ended = ['\n'] && !wasBlank && !isBlankNow then
          if breaks.isEmpty then [' '] else []
        else ended
      let line := chars (gs.takeWhile (!isBreakOrEnd ·.char))
      let done := line.reverse ++ (breaks.reverse ++ (joint.reverse ++ done))
      let rest := dropLine gs
      let (ended, rest) := match lineEnd? rest with
        | some (c, rest) => ([c], rest)
        | none => ([], rest)
      let (_, breaks, rest) ← blockBreaks indent limit 0 [] rest
      blockLines isFolded indent limit done ended breaks isBlankNow rest
    else some (done, ended, breaks, gs)

/-- The indicators after the mark of a block: chomping and indentation in either order. -/
def blockHeader? (gs : List Glyph) : Option (Chomping × Nat × List Glyph) := do
  let chomping (gs : List Glyph) : Chomping × List Glyph :=
    if char₀ gs = '+' then (.keep, gs.drop 1)
    else if char₀ gs = '-' then (.strip, gs.drop 1)
    else (.clip, gs)
  let digit (gs : List Glyph) : Option (Nat × List Glyph) :=
    if char₀ gs = '0' then none
    else if (char₀ gs).isDigit then some ((char₀ gs).toNat - '0'.toNat, gs.drop 1)
    else some (0, gs)
  let (first, rest) := chomping gs
  let (increment, rest) ← digit rest
  let (second, rest) := if first = .clip ∧ increment ≠ 0 then chomping rest else (first, rest)
  let rest := dropBlanks rest
  let rest := if char₀ rest = '#' then dropLine rest else rest
  if char₀ rest = endMark then return (second, increment, rest)
  let (_, rest) ← lineEnd? rest
  return (second, increment, rest)

/-- A block scalar after its mark, inside of a block with the given indentation. -/
def block (isFolded : Bool) (outer : Int) (limit : Nat) (gs : List Glyph) :
    Option (List Char × List Glyph) := do
  let (chomping, increment, rest) ← blockHeader? gs
  let given := if increment = 0 then 0 else (max outer 0).toNat + increment
  let (deepest, breaks, rest) ← blockBreaks given limit 0 [] rest
  let indent := if given = 0 then max (max deepest (outer + 1).toNat) 1 else given
  let (done, ended, breaks, rest) ← blockLines isFolded indent limit [] [] breaks false rest
  let tail := match chomping with
    | .strip => []
    | .clip => ended
    | .keep => ended ++ breaks
  return (done.reverse ++ tail, rest)

end Scalar

end DetachedSchema.Yaml
