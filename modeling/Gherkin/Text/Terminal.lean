/-!
# Texts for a terminal

A terminal takes some control characters as the beginning of a command: backspace, form feed, the
bell, escape, delete, and the controls from U+0080 to U+009F. A text that is to be read and not
obeyed has their code points in hexadecimal instead, those of ASCII with two digits and the others
in braces. Backslashes stay as they are, so this is no quoting.
-/

namespace Gherkin.Text

/-- The controls of ASCII that a terminal takes as commands. -/
def isTerminalControl (c : Char) : Bool :=
  c = '\x07' || c = '\x08' || c = '\x0c' || c = '\x1b' || c = '\x7f'

/-- The character is one of the controls beyond ASCII. -/
def isHighControl (c : Char) : Bool :=
  decide (0x80 ≤ c.toNat) && decide (c.toNat ≤ 0x9F)

/-- A character of a text that is to be read. -/
def readableChar (c : Char) : List Char :=
  if isTerminalControl c then
    ['\\', 'x', Nat.digitChar (c.toNat / 16), Nat.digitChar (c.toNat % 16)]
  else if isHighControl c then
    ['\\', 'u', '\x7b'] ++ Nat.toDigits 16 c.toNat ++ ['\x7d']
  else [c]

/-- The text without characters that a terminal takes as commands. -/
def readable (s : String) : String :=
  .ofList (s.toList.flatMap readableChar)

end Gherkin.Text
