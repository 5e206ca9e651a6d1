import DetachedSchema.Text.Printable

/-!
# Quoted text

Text in double quotes, written so that every character of it can be told apart on a terminal.
Messages show names and file paths in this form.
-/

namespace DetachedSchema.Text

/-- The digits of a number in base sixteen, in lower case and without leading zeros. -/
def hexDigits (n : Nat) : List Char := Nat.toDigits 16 n

/-- One character inside the quotes: the quote, the backslash and the common controls have
escapes of two characters, what is not printable is named by its number, and all else stands for
itself. -/
def quotedChar (c : Char) : List Char :=
  match c with
  | '\x00' => ['\\', '0']
  | '\t' => ['\\', 't']
  | '\n' => ['\\', 'n']
  | '\r' => ['\\', 'r']
  | '"' => ['\\', '"']
  | '\\' => ['\\', '\\']
  | c => if isPrintable c then [c] else ['\\', 'u', '{'] ++ hexDigits c.toNat ++ ['}']

/-- The text in quotes. -/
def quoted (s : String) : String :=
  String.ofList ('"' :: s.toList.flatMap quotedChar ++ ['"'])

end DetachedSchema.Text
