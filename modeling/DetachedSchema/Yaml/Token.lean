import DetachedSchema.Yaml.Scalar
import DetachedSchema.Yaml.Tag

/-!
# Tokens

A YAML text as a sequence of tokens.  Blocks, which are marked by indentation alone, get tokens for
their start and end.  A key is known by the colon behind it, so its token is put in front of tokens
that have been found before.
-/

namespace DetachedSchema.Yaml

/-- A token of a YAML text. -/
inductive Token
  | version (major minor : Nat)
  /-- The declaration that a tag handle stands for the start of a tag. -/
  | handle (name : String) (expansion : Tag)
  | documentStart
  | documentEnd
  | textEnd
  | blockListStart
  | blockMapStart
  | blockEnd
  | blockEntry
  | flowListStart
  | flowListEnd
  | flowMapStart
  | flowMapEnd
  | flowEntry
  | key
  | value
  | alias (name : String)
  | anchor (name : String)
  | tag (handle : String) (suffix : Tag)
  | scalar (style : Style) (text : String)
deriving DecidableEq

namespace Token

open Glyph

/-- A place where a key may have started that is known by the colon behind it. -/
structure SimpleKey where
  /-- The number of tokens in front of it. -/
  token : Nat
  /-- Whether nothing but a key may stand there. -/
  required : Bool
  place : Glyph

/-- How far a text has been read. -/
structure State where
  /-- What is left of the text. -/
  rest : List Glyph
  /-- A number that is greater than that of the glyphs, so that no loop over them takes more
  steps. -/
  limit : Nat
  /-- The column of the innermost block, -1 outside of blocks. -/
  indent : Int := -1
  /-- The columns of the blocks around it, from the inside. -/
  indents : List Int := []
  /-- Whether a key may start here. -/
  keyAllowed : Bool := true
  /-- The key that may have started inside of the innermost brackets. -/
  simpleKey : Option SimpleKey := none
  /-- The same inside of the brackets around them, from the inside. -/
  outerKeys : List (Option SimpleKey) := []
  /-- The tokens so far, the last one first. -/
  found : List Token := []
  /-- How many there are of them. -/
  count : Nat := 0

/-- A step of reading tokens. -/
abbrev Scan := StateT State Option

/-- Whether the text stands inside of brackets. -/
def State.inFlow (s : State) : Bool := !s.outerKeys.isEmpty

/-- Passes over characters. -/
def skip (count : Nat) : Scan Unit := modify fun s => { s with rest := s.rest.drop count }

/-- Goes on with another rest of the text. -/
def goto (rest : List Glyph) : Scan Unit := modify fun s => { s with rest }

/-- Appends a token. -/
def emit (t : Token) : Scan Unit := modify fun s =>
  { s with found := t :: s.found, count := s.count + 1 }

/-- Puts a token behind a number of others. -/
def insert (number : Nat) (t : Token) : Scan Unit := modify fun s =>
  let after := s.count - number
  { s with found := s.found.take after ++ t :: s.found.drop after, count := s.count + 1 }

/-- Says whether a key may start here. -/
def allowKey (keyAllowed : Bool) : Scan Unit := modify fun s => { s with keyAllowed }

/-! ### Indentation -/

/-- The blocks that end where something starts in a column: their number, the column of the
innermost block that goes on, and those of the blocks around it. -/
def closedBlocks (column : Int) : Int → List Int → Nat × Int × List Int
  | indent, [] => (0, indent, [])
  | indent, outer :: rest =>
    if indent > column then
      let (count, indent, rest) := closedBlocks column outer rest
      (count + 1, indent, rest)
    else (0, indent, outer :: rest)

/-- Ends the blocks to the right of a column. -/
def closeBlocks (column : Int) : Scan Unit := modify fun s =>
  if s.inFlow then s
  else
    let (ended, indent, indents) := closedBlocks column s.indent s.indents
    { s with
      indent, indents
      found := List.replicate ended .blockEnd ++ s.found
      count := s.count + ended }

/-- Starts a block in a column when the innermost one is to the left of it, with its token behind a
number of others. -/
def openBlock (column : Nat) (number : Nat) (t : Token) : Scan Unit := do
  let s ← get
  if !s.inFlow && s.indent < column then
    set { s with indent := (column : Int), indents := s.indent :: s.indents }
    insert number t

/-! ### Keys before their colon -/

/-- Whether a key that has started at `k` can no longer end at `now`: it has to be on one line and
not longer than 1024 bytes. -/
def SimpleKey.isStale (k : SimpleKey) (now : Glyph) : Bool :=
  k.place.line < now.line || k.place.index + 1024 < now.index

/-- The key, unless it can no longer end; a required one has to. -/
def stillPossible (now : Glyph) : Option SimpleKey → Option (Option SimpleKey)
  | some k => if k.isStale now then if k.required then none else some none else some (some k)
  | none => some none

/-- Gives up the keys that can no longer end. -/
def dropStaleKeys : Scan Unit := do
  let s ← get
  let now := first s.rest
  let simpleKey ← stillPossible now s.simpleKey
  let outerKeys ← s.outerKeys.mapM fun k => (stillPossible now k : Scan (Option SimpleKey))
  set { s with simpleKey, outerKeys }

/-- Gives up the key that may have started. -/
def dropKey : Scan Unit := do
  let s ← get
  if s.simpleKey.any (·.required) then failure
  set { s with simpleKey := none }

/-- Notes that a key may start here. -/
def noteKey : Scan Unit := do
  let s ← get
  if s.keyAllowed then
    let place := first s.rest
    dropKey
    modify ({ · with
      simpleKey := some ⟨s.count, !s.inFlow && s.indent = place.column, place⟩ })

/-! ### Blanks and comments -/

/-- Passes over blanks, comments and ends of lines.  Tabs may stand where no key may start. -/
def skipGap : Nat → Scan Unit
  | 0 => failure
  | limit + 1 => do
    let s ← get
    let rest :=
      if (first s.rest).column = 0 && char₀ s.rest = '\uFEFF' then s.rest.drop 1 else s.rest
    let tabs := s.inFlow || !s.keyAllowed
    let rest := rest.dropWhile fun g => g.char = ' ' || (tabs && g.char = '\t')
    let rest := if char₀ rest = '#' then dropLine rest else rest
    match lineEnd? rest with
    | some (_, rest) =>
      set { s with rest, keyAllowed := s.keyAllowed || !s.inFlow }
      skipGap limit
    | none => set { s with rest }

/-! ### Anchors and tags -/

/-- The front of a text whose characters satisfy a test, and what follows. -/
def span (test : Char → Bool) : Scan String := do
  let s ← get
  let (front, rest) := s.rest.span (test ·.char)
  set { s with rest }
  return String.ofList (chars front)

/-- The name of an anchor after its mark. -/
def anchorName : Scan String := do
  let name ← span isNameChar
  let c := char₀ (← get).rest
  guard (!name.isEmpty && (isBlankOrEnd c || "?:,]\x7d%@\x60".toList.contains c))
  return name

/-- The handle of a tag: two exclamation marks with a name between them, or the first mark and what
may be the start of a suffix. -/
def tagHandle : Scan String := do
  guard (char₀ (← get).rest = '!')
  skip 1
  let name ← span isNameChar
  if char₀ (← get).rest = '!' then
    skip 1
    return "!" ++ name ++ "!"
  else return "!" ++ name

/-- The bytes of a tag after some that have been read. -/
def tagBytes (verbatim : Bool) (front : String) : Scan Tag := do
  let s ← get
  let (bytes, rest) ← Tag.read verbatim s.limit s.rest
  goto rest
  return (Tag.ofText front).append ⟨bytes⟩

/-- A tag: verbatim between angle brackets, with a handle, or with a suffix alone. -/
def scanTag : Scan Unit := do
  let s ← get
  if charAt s.rest 1 = '<' then
    skip 2
    let suffix ← tagBytes true ""
    guard (!suffix.isEmpty && char₀ (← get).rest = '>')
    skip 1
    emit (.tag "" suffix.untilZero)
  else
    let handle ← tagHandle
    if 1 < handle.length && handle.endsWith "!" then
      let suffix ← tagBytes false ""
      guard (!suffix.isEmpty)
      emit (.tag handle suffix.untilZero)
    else
      let suffix := (← tagBytes false (handle.drop 1).toString).untilZero
      emit (if suffix.isEmpty then .tag "" (.ofText "!") else .tag "!" suffix)
  let c := char₀ (← get).rest
  guard (isBlankOrEnd c || (s.inFlow && c = ','))

/-! ### Declarations before a document -/

/-- Passes over spaces and tabs. -/
def skipBlanks : Scan Unit := modify fun s => { s with rest := dropBlanks s.rest }

/-- A number of a version: at most nine digits. -/
def versionNumber : Scan Nat := do
  let digits ← span Char.isDigit
  guard (!digits.isEmpty && digits.length ≤ 9)
  return digits.toList.foldl (fun n c => 10 * n + (c.toNat - '0'.toNat)) 0

/-- A declaration after its mark: the version of YAML or the meaning of a tag handle. -/
def scanDeclaration : Scan Unit := do
  let name ← span isNameChar
  guard (isBlankOrEnd (char₀ (← get).rest))
  skipBlanks
  match name with
  | "YAML" =>
    let major ← versionNumber
    guard (char₀ (← get).rest = '.')
    skip 1
    emit (.version major (← versionNumber))
  | "TAG" =>
    let handle ← tagHandle
    guard (handle.endsWith "!")
    guard (isBlank (char₀ (← get).rest))
    skipBlanks
    let expansion ← tagBytes true ""
    guard (!expansion.isEmpty && isBlankOrEnd (char₀ (← get).rest))
    emit (.handle handle expansion.untilZero)
  | _ => failure
  skipBlanks
  let s ← get
  let rest := if char₀ s.rest = '#' then dropLine s.rest else s.rest
  guard (isBreakOrEnd (char₀ rest))
  goto (((lineEnd? rest).map (·.2)).getD rest)

/-! ### Tokens by their first character -/

/-- A token that ends all blocks and is as long as said. -/
def scanMark (t : Token) (length : Nat) : Scan Unit := do
  closeBlocks (-1)
  dropKey
  allowKey false
  skip length
  emit t

/-- An opening bracket. -/
def scanOpening (t : Token) : Scan Unit := do
  noteKey
  modify fun s => { s with simpleKey := none, outerKeys := s.simpleKey :: s.outerKeys }
  allowKey true
  skip 1
  emit t

/-- A closing bracket. -/
def scanClosing (t : Token) : Scan Unit := do
  dropKey
  modify fun s => match s.outerKeys with
    | k :: outer => { s with simpleKey := k, outerKeys := outer }
    | [] => s
  allowKey false
  skip 1
  emit t

/-- A mark before an entry of a block, which may have to start the block. -/
def scanBlockMark (start t : Token) (keyAfter : Bool) : Scan Unit := do
  let s ← get
  if !s.inFlow then
    guard s.keyAllowed
    openBlock (first s.rest).column s.count start
  dropKey
  allowKey keyAfter
  skip 1
  emit t

/-- The colon before a value.  If a key has started, its token is put where it did. -/
def scanValue : Scan Unit := do
  let s ← get
  match s.simpleKey with
  | some k =>
    insert k.token .key
    openBlock k.place.column k.token .blockMapStart
    modify ({ · with simpleKey := none })
    allowKey false
    skip 1
    emit .value
  | none => scanBlockMark .blockMapStart .value (!s.inFlow)

/-- A token that may be the start of a key. -/
def scanKeyStart (token : Scan Token) : Scan Unit := do
  noteKey
  allowKey false
  emit (← token)

/-- A scalar in quotes. -/
def quotedScalar (style : Style) (quote : Char) : Scan Token := do
  skip 1
  let s ← get
  let (cs, rest) ← Scalar.quoted quote s.limit [] s.rest
  goto rest
  return .scalar style (String.ofList cs)

/-- A plain scalar.  After one that is followed by the end of a line a key may start. -/
def plainScalar : Scan Token := do
  let s ← get
  let (cs, rest, broken) ← Scalar.plain s.inFlow (s.indent + 1) s.limit [] [] false s.rest
  goto rest
  if broken then allowKey true
  return .scalar .plain (String.ofList cs)

/-- A block scalar. -/
def scanBlock (style : Style) : Scan Unit := do
  dropKey
  allowKey true
  skip 1
  let s ← get
  let (cs, rest) ← Scalar.block (style = .folded) s.indent s.limit s.rest
  goto rest
  emit (.scalar style (String.ofList cs))

/-- Whether a plain scalar may start at the front of a text. -/
def startsPlain (inFlow : Bool) (gs : List Glyph) : Bool :=
  let c := char₀ gs
  !(isBlankOrEnd c || "-?:,[]\x7b\x7d#&*!|>'\"%@\x60".toList.contains c)
    || (c = '-' && !isBlank (charAt gs 1))
    || (!inFlow && (c = '?' || c = ':') && !isBlankOrEnd (charAt gs 1))

/-- Moves to the next token, and ends the blocks and gives up the keys that end before it. -/
def approach : Scan Unit := do
  skipGap (← get).limit
  dropStaleKeys
  closeBlocks (first (← get).rest).column

/-- Reads the token that starts here and says whether the text goes on. -/
def scanToken : Scan Bool := do
  let s ← get
  let gs := s.rest
  let c := char₀ gs
  let indicates := s.inFlow || isBlankOrEnd (charAt gs 1)
  if c = endMark then
    scanMark .textEnd 0
    return false
  if (first gs).column = 0 && c = '%' then
    closeBlocks (-1)
    dropKey
    allowKey false
    skip 1
    scanDeclaration
  else if isMark '-' gs then scanMark .documentStart 3
  else if isMark '.' gs then scanMark .documentEnd 3
  else if c = '[' then scanOpening .flowListStart
  else if c = '{' then scanOpening .flowMapStart
  else if c = ']' then scanClosing .flowListEnd
  else if c = '}' then scanClosing .flowMapEnd
  else if c = ',' then
    dropKey
    allowKey true
    skip 1
    emit .flowEntry
  else if c = '-' && isBlankOrEnd (charAt gs 1) then scanBlockMark .blockListStart .blockEntry true
  else if c = '?' && indicates then scanBlockMark .blockMapStart .key (!s.inFlow)
  else if c = ':' && indicates then scanValue
  else if c = '*' then scanKeyStart do skip 1; return .alias (← anchorName)
  else if c = '&' then scanKeyStart do skip 1; return .anchor (← anchorName)
  else if c = '!' then
    noteKey
    allowKey false
    scanTag
  else if c = '|' && !s.inFlow then scanBlock .literal
  else if c = '>' && !s.inFlow then scanBlock .folded
  else if c = '\'' then scanKeyStart (quotedScalar .singleQuoted '\'')
  else if c = '"' then scanKeyStart (quotedScalar .doubleQuoted '"')
  else if startsPlain s.inFlow gs then scanKeyStart plainScalar
  else failure
  return true

/-- Reads the next token and says whether the text goes on. -/
def step : Scan Bool := do
  approach
  scanToken

/-- Reads tokens to the end of the text; every token but the last takes a character. -/
def scanAll : Nat → Scan Unit
  | 0 => failure
  | limit + 1 => do if ← step then scanAll limit

/-- The tokens of a text. -/
def ofText? (text : List Char) : Option (List Token) := do
  let glyphs ← Glyph.ofText? text
  let limit := glyphs.length + 1
  let (_, s) ← scanAll limit { rest := glyphs, limit }
  return s.found.reverse

end Token

end DetachedSchema.Yaml
