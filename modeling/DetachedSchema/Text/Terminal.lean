import DetachedSchema.Text.Quoted

/-!
# Text on terminals

Some characters command a terminal when they are shown on it.  In a text for a terminal they are
written as escapes, while tabs, line breaks and the controls that terminals ignore stay as they are.
-/

namespace DetachedSchema.Text

/-- Whether the character commands a terminal: the bell, the backspace, the form feed, escape,
delete, and the controls from U+0080 on. -/
def isCommand (c : Char) : Bool :=
  c = '\x07' || c = '\x08' || c = '\x0c' || c = '\x1b' || c = '\x7f' ||
    (0x80 ≤ c.toNat && c.toNat ≤ 0x9f)

/-- One character for a terminal.  A command is named by its number in base sixteen, which has two
digits when the character is an ASCII one. -/
def terminalChar (c : Char) : List Char :=
  if !isCommand c then [c]
  else if c.toNat < 0x10 then ['\\', 'x', '0'] ++ hexDigits c.toNat
  else if c.toNat < 0x80 then ['\\', 'x'] ++ hexDigits c.toNat
  else ['\\', 'u', '{'] ++ hexDigits c.toNat ++ ['}']

/-- The text for a terminal. -/
def forTerminal (s : String) : String :=
  String.ofList (s.toList.flatMap terminalChar)

end DetachedSchema.Text
