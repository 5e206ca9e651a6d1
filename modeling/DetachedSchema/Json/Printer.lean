import DetachedSchema.Tree

/-!
# Printing JSON

A tree as JSON text, without blanks or with one member a line.  Quotes, backslashes and controls are
escaped, and every other character stands for itself.
-/

namespace DetachedSchema.Json

/-- A digit in base sixteen, in lower case. -/
def hexDigit (n : Nat) : Char := Nat.digitChar (n % 16)

/-- One character of a text between the quotes. -/
def escaped (c : Char) : List Char :=
  if c = '"' then ['\\', '"']
  else if c = '\\' then ['\\', '\\']
  else if c = '\x08' then ['\\', 'b']
  else if c = '\t' then ['\\', 't']
  else if c = '\n' then ['\\', 'n']
  else if c = '\x0c' then ['\\', 'f']
  else if c = '\r' then ['\\', 'r']
  else if c < ' ' then ['\\', 'u', '0', '0', hexDigit (c.toNat / 16), hexDigit c.toNat]
  else [c]

/-- A text in quotes. -/
def text (s : String) : List Char := '"' :: s.toList.flatMap escaped ++ ['"']

/-- A whole number in base ten. -/
def number (n : Int) : List Char :=
  if n < 0 then '-' :: Nat.toDigits 10 n.natAbs else Nat.toDigits 10 n.natAbs

/-- A truth value. -/
def bool (b : Bool) : List Char := if b then "true".toList else "false".toList

/-! ### Without blanks -/

mutual

/-- The tree without blanks. -/
def compact : Tree → List Char
  | .null => "null".toList
  | .bool b => bool b
  | .number n => number n
  | .text s => text s
  | .list [] => ['[', ']']
  | .list (t :: ts) => '[' :: compact t ++ compactItems ts
  | .record [] => ['{', '}']
  | .record ((name, t) :: ms) => '{' :: text name ++ ':' :: compact t ++ compactMembers ms

/-- The items after the first one and the end of their list. -/
def compactItems : List Tree → List Char
  | [] => [']']
  | t :: ts => ',' :: compact t ++ compactItems ts

/-- The members after the first one and the end of their record. -/
def compactMembers : List (String × Tree) → List Char
  | [] => ['}']
  | (name, t) :: ms => ',' :: text name ++ ':' :: compact t ++ compactMembers ms

end

/-! ### With one member a line -/

/-- The end of a line and two blanks for every enclosing list or record. -/
def newLine (depth : Nat) : List Char := '\n' :: List.replicate (2 * depth) ' '

mutual

/-- The tree inside `depth` lists and records. -/
def pretty (depth : Nat) : Tree → List Char
  | .null => "null".toList
  | .bool b => bool b
  | .number n => number n
  | .text s => text s
  | .list [] => ['[', ']']
  | .list (t :: ts) =>
    '[' :: newLine (depth + 1) ++ pretty (depth + 1) t ++ prettyItems depth ts
  | .record [] => ['{', '}']
  | .record ((name, t) :: ms) =>
    '{' :: newLine (depth + 1) ++ text name ++ ':' :: ' ' :: pretty (depth + 1) t ++
      prettyMembers depth ms

/-- The items after the first one and the end of their list. -/
def prettyItems (depth : Nat) : List Tree → List Char
  | [] => newLine depth ++ [']']
  | t :: ts => ',' :: newLine (depth + 1) ++ pretty (depth + 1) t ++ prettyItems depth ts

/-- The members after the first one and the end of their record. -/
def prettyMembers (depth : Nat) : List (String × Tree) → List Char
  | [] => newLine depth ++ ['}']
  | (name, t) :: ms =>
    ',' :: newLine (depth + 1) ++ text name ++ ':' :: ' ' :: pretty (depth + 1) t ++
      prettyMembers depth ms

end

/-- The tree as JSON text. -/
def print (isPretty : Bool) (t : Tree) : String :=
  String.ofList (if isPretty then pretty 0 t else compact t)

end DetachedSchema.Json
