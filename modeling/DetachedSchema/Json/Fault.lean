import DetachedSchema.Text.Quoted
import DetachedSchema.Decimal.Notation

/-!
# Faults of JSON documents

A document is at fault when its text is not JSON, when the text ends too early, or when what it says
is not what the reader asked for.
-/

namespace DetachedSchema.Json

/-- What stands where something else was expected. -/
inductive Found
  | null
  | bool (value : Bool)
  | integer (value : Int)
  /-- A number with a fraction or an exponent, or one too large for a word, by its bits. -/
  | real (bits : UInt64)
  | text (value : String)
  | list
  | record
deriving DecidableEq

/-- What was found, in words. -/
def Found.words : Found → String
  | .null => "null"
  | .bool true => "boolean `true`"
  | .bool false => "boolean `false`"
  | .integer n => s!"integer `{n}`"
  | .real bits => s!"floating point `{Decimal.plain.writeBits bits}`"
  | .text s => s!"string {Text.quoted s}"
  | .list => "sequence"
  | .record => "map"

/-- How well-formed JSON differs from what was asked for. -/
inductive Problem
  | wrongType (found : Found) (expected : String)
  | outOfRange (value : Int) (expected : String)
  | unknownVariant (name : String) (known : List String)
  | missingField (name : String)
  | duplicateField (name : String)
  | wrongLength (length : Nat) (expected : String)
  | stated (message : String)
  /-- A problem with the place in a text where it arose; lines are counted from one. -/
  | statedAt (message : String) (line column : Nat)
deriving DecidableEq

/-- The names to choose from, in words. -/
def choice (names : List String) : String :=
  match names.map (fun name => s!"`{name}`") with
  | [] => "there are no variants"
  | [a] => "expected " ++ a
  | [a, b] => "expected " ++ a ++ " or " ++ b
  | many => "expected one of " ++ ", ".intercalate many

/-- The problem in words. -/
def Problem.message : Problem → String
  | .wrongType found expected => s!"invalid type: {found.words}, expected {expected}"
  | .outOfRange value expected => s!"invalid value: integer `{value}`, expected {expected}"
  | .unknownVariant name known => s!"unknown variant `{name}`, {choice known}"
  | .missingField name => s!"missing field `{name}`"
  | .duplicateField name => s!"duplicate field `{name}`"
  | .wrongLength length expected => s!"invalid length {length}, expected {expected}"
  | .stated message => message
  | .statedAt message line column => s!"{message} at line {line} column {column}"

/-- Takes a number and the words before it from the end of a text, which is given backwards.  The
number has to fit into a word of 64 bits. -/
def numberAtEnd? (words : String) (backwards : List Char) : Option (Nat × List Char) := do
  let digits := backwards.takeWhile Char.isDigit
  let rest ← words.toList.reverse.isPrefixOf? (backwards.dropWhile Char.isDigit)
  let number := digits.foldr (fun c n => 10 * n + (c.toNat - '0'.toNat)) 0
  if digits.isEmpty || UInt64.size ≤ number then none else some (number, rest)

/-- The place at the end of a text, as line and column, and the text in front of it. -/
def placeAtEnd? (text : String) : Option (String × Nat × Nat) := do
  let (column, rest) ← numberAtEnd? " column " text.toList.reverse
  let (line, rest) ← numberAtEnd? " at line " rest
  return (String.ofList rest.reverse, line, column)

/-- The problem that a message states.  The message may end with the place where the problem arose,
and line 0 there stands for no place at all. -/
def Problem.ofMessage (message : String) : Problem :=
  match placeAtEnd? message with
  | none => .stated message
  | some (problem, 0, _) => .stated problem
  | some (problem, line, column) => .statedAt problem line column

/-- Why a document cannot be read. -/
inductive Fault
  | malformed
  | truncated
  | mismatch (problem : Problem)
deriving DecidableEq

/-- The fault in words. -/
def Fault.message : Fault → String
  | .malformed => "malformed text"
  | .truncated => "unexpected end of text"
  | .mismatch problem => problem.message

end DetachedSchema.Json
