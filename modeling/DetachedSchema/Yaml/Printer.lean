import DetachedSchema.Tree
import DetachedSchema.Yaml.Plain
import DetachedSchema.Yaml.Scalar

/-!
# Printing YAML

A tree as a YAML document in block notation.  A list stands in the column of the member that it
belongs to, and what is deeper is indented by two.  A text is written in the first style that can
hold it: plain or as a block of lines, in single quotes, in double quotes.
-/

namespace DetachedSchema.Yaml

namespace Scalar

/-! ### Styles -/

/-- Whether the character can be shown: it is no control but a line feed, no byte order mark and no
character that stands for none. -/
def isShown (c : Char) : Bool :=
  let n := c.toNat
  n = 0x0A || (0x20 ≤ n && n ≤ 0x7E) || (0xA0 ≤ n && n ≠ 0xFEFF && n ≠ 0xFFFE && n ≠ 0xFFFF)

/-- Whether two characters in a row satisfy a test each. -/
def hasPair (first second : Char → Bool) (cs : List Char) : Bool :=
  (cs.zip cs.tail).any fun (c, d) => first c && second d

/-- Whether a plain scalar may not start like this. -/
def startsWithMark (cs : List Char) : Bool :=
  match cs with
  | '-' :: '-' :: '-' :: _ | '.' :: '.' :: '.' :: _ => true
  | c :: rest =>
    "#,[]\x7b\x7d&*!|>'\"%@\x60".toList.contains c
      || ((c = '?' || c = ':' || c = '-') && isBlankOrEnd (rest.headD endMark))
  | [] => true

/-- Whether there is something behind the first character that would end a plain scalar or start a
comment: a colon in front of a blank or of the end, or a number sign behind a blank. -/
def holdsMark (cs : List Char) : Bool :=
  hasPair (· = ':') isBlankOrEnd cs.tail || cs.tail.getLast? = some ':'
    || hasPair isBlankOrEnd (· = '#') cs

/-- Whether the text can be written plainly. -/
def fitsPlain (cs : List Char) : Bool :=
  !startsWithMark cs && !holdsMark cs && cs.all isShown && !cs.any isBreak
    && cs.head? ≠ some ' ' && cs.getLast? ≠ some ' '

/-- Whether the text can be written in single quotes: no blank stands next to the end of a line. -/
def fitsQuotes (cs : List Char) : Bool :=
  cs.all isShown && !hasPair (· = ' ') isBreak cs && !hasPair isBreak (· = ' ') cs

/-- Whether the text can be written as a block: no blank stands at the end of a line. -/
def fitsBlock (cs : List Char) : Bool :=
  cs.all isShown && !hasPair (· = ' ') isBreak cs && cs.getLast? ≠ some ' '

/-- The style in which a text is written.  A text of several lines is a block. -/
def styleOf (cs : List Char) : Style :=
  if cs.contains '\n' then if fitsBlock cs then .literal else .doubleQuoted
  else if fitsPlain cs && !Plain.isAmbiguous (String.ofList cs) then .plain
  else if fitsQuotes cs then .singleQuoted
  else .doubleQuoted

/-! ### Writing -/

/-- So many spaces. -/
def spaces (count : Nat) : List Char := List.replicate count ' '

/-- The characters of a text in single quotes, where a quote is written twice.  `broken` says that
the character before ended a line, so that the next one is indented. -/
def singleQuoted (indent : Nat) : Bool → List Char → List Char
  | broken, [] => if broken then spaces indent else []
  | broken, c :: cs =>
    if isBreak c then c :: singleQuoted indent true cs
    else
      (if broken then spaces indent else []) ++
        (if c = '\'' then ['\'', '\''] else [c]) ++ singleQuoted indent false cs

/-- A number in base sixteen with a given count of digits. -/
def hexDigits (count n : Nat) : List Char :=
  let digits := (Nat.toDigits 16 n).map Char.toUpper
  List.replicate (count - digits.length) '0' ++ digits

/-- A character of a text in double quotes. -/
def doubleQuotedChar (c : Char) : List Char :=
  if isShown c && !isBreak c && c ≠ '"' && c ≠ '\\' then [c]
  else '\\' :: match c with
    | '\x00' => ['0']
    | '\x07' => ['a']
    | '\x08' => ['b']
    | '\t' => ['t']
    | '\n' => ['n']
    | '\x0b' => ['v']
    | '\x0c' => ['f']
    | '\r' => ['r']
    | '\x1b' => ['e']
    | '"' => ['"']
    | '\\' => ['\\']
    | '\x85' => ['N']
    | '\u2028' => ['L']
    | '\u2029' => ['P']
    | c =>
      if c.toNat ≤ 0xFF then 'x' :: hexDigits 2 c.toNat
      else if c.toNat ≤ 0xFFFF then 'u' :: hexDigits 4 c.toNat
      else 'U' :: hexDigits 8 c.toNat

/-- The indicators of a block.  The first says how far it is indented, when that cannot be seen from
its first line; the second what becomes of the end of the last line. -/
def blockHints (cs : List Char) : List Char :=
  let indentation := match cs with
    | c :: _ => if c = ' ' || isBreak c then ['2'] else []
    | [] => []
  let chomping := match cs.reverse with
    | [] => ['-']
    | last :: before =>
      if !isBreak last then ['-']
      else if before.isEmpty || before.head?.any isBreak then ['+']
      else []
  indentation ++ chomping

/-- The lines of a block with the end of the last one.  `broken` says that the character before
ended a line. -/
def indented (indent : Nat) : Bool → List Char → List Char
  | broken, [] => if broken then [] else ['\n']
  | broken, c :: cs =>
    if isBreak c then c :: indented indent true cs
    else (if broken then spaces indent else []) ++ c :: indented indent false cs

/-- The notation of a text with the end of its last line. -/
def line (indent : Nat) (cs : List Char) : List Char :=
  match styleOf cs with
  | .plain => cs ++ ['\n']
  | .singleQuoted => '\'' :: singleQuoted indent false cs ++ ['\'', '\n']
  | .doubleQuoted => '"' :: cs.flatMap doubleQuotedChar ++ ['"', '\n']
  | .literal | .folded => '|' :: blockHints cs ++ '\n' :: indented indent true cs

end Scalar

/-! ### Trees -/

/-- A tree without items or members, with the end of its last line. -/
def line (indent : Nat) : Tree → List Char
  | .null => "null\n".toList
  | .bool b => (if b then "true\n" else "false\n").toList
  | .number n => (toString n).toList ++ ['\n']
  | .text s => Scalar.line indent s.toList
  | .list _ => "[]\n".toList
  | .record _ => "\x7b\x7d\n".toList

mutual

/-- The items of a list in a column. -/
def itemsAt (column : Nat) : List Tree → List Char
  | [] => []
  | t :: ts => Scalar.spaces column ++ '-' :: ' ' :: afterDash (column + 2) t ++ itemsAt column ts

/-- The members of a record in a column. -/
def membersAt (column : Nat) : List (String × Tree) → List Char
  | [] => []
  | (name, t) :: ms =>
    Scalar.spaces column ++ name.toList ++ ':' :: afterColon column t ++ membersAt column ms

/-- A tree on the line of a dash, in the column after it. -/
def afterDash (column : Nat) : Tree → List Char
  | .list (t :: ts) => '-' :: ' ' :: afterDash (column + 2) t ++ itemsAt column ts
  | .record ((name, t) :: ms) =>
    name.toList ++ ':' :: afterColon column t ++ membersAt column ms
  | t => line column t

/-- A tree after the colon of a member in a column. -/
def afterColon (column : Nat) : Tree → List Char
  | .list (t :: ts) => '\n' :: itemsAt column (t :: ts)
  | .record (m :: ms) => '\n' :: membersAt (column + 2) (m :: ms)
  | t => ' ' :: line (column + 2) t

end

/-- The tree as a YAML document. -/
def print (t : Tree) : String :=
  String.ofList <| match t with
    | .list (t :: ts) => itemsAt 0 (t :: ts)
    | .record (m :: ms) => membersAt 0 (m :: ms)
    | t => line 2 t

end DetachedSchema.Yaml
