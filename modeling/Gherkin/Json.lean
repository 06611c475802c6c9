/-!
# JSON

Values of JSON that listings need: texts, whole numbers, lists and objects whose fields keep their
order. A list or an object that is not empty has each member on a line of its own, two spaces a
level. A text escapes its quotes and backslashes and the characters below the space.
-/

namespace Gherkin

/-- A value of JSON. -/
inductive Json where
  | text (s : String)
  | number (n : Nat)
  | list (items : List Json)
  | object (fields : List (String × Json))

namespace Json

/-- A character inside a quoted text. -/
def escaped (c : Char) : List Char :=
  match c with
  | '"' => ['\\', '"']
  | '\\' => ['\\', '\\']
  | '\x08' => ['\\', 'b']
  | '\t' => ['\\', 't']
  | '\n' => ['\\', 'n']
  | '\x0c' => ['\\', 'f']
  | '\r' => ['\\', 'r']
  | c =>
    if c.toNat < 32 then
      ['\\', 'u', '0', '0', Nat.digitChar (c.toNat / 16), Nat.digitChar (c.toNat % 16)]
    else [c]

/-- A text between quotes. -/
def quoted (s : String) : List Char :=
  '"' :: s.toList.flatMap escaped ++ ['"']

/-- A new line at a depth. -/
def newLine (depth : Nat) : List Char :=
  '\n' :: List.replicate (2 * depth) ' '

mutual

/-- The value as it is written at a depth. -/
def chars (depth : Nat) : Json → List Char
  | .text s => quoted s
  | .number n => (toString n).toList
  | .list [] => ['[', ']']
  | .list (v :: vs) =>
    '[' :: newLine (depth + 1) ++ chars (depth + 1) v ++ itemChars (depth + 1) vs
      ++ newLine depth ++ [']']
  | .object [] => ['\x7b', '\x7d']
  | .object ((k, v) :: fs) =>
    '\x7b' :: newLine (depth + 1) ++ quoted k ++ [':', ' '] ++ chars (depth + 1) v
      ++ fieldChars (depth + 1) fs ++ newLine depth ++ ['\x7d']

/-- The items after the first as they are written at a depth. -/
def itemChars (depth : Nat) : List Json → List Char
  | [] => []
  | v :: vs => ',' :: newLine depth ++ chars depth v ++ itemChars depth vs

/-- The fields after the first as they are written at a depth. -/
def fieldChars (depth : Nat) : List (String × Json) → List Char
  | [] => []
  | (k, v) :: fs =>
    ',' :: newLine depth ++ quoted k ++ [':', ' '] ++ chars depth v ++ fieldChars depth fs

end

/-- The value as it is written. -/
def pretty (v : Json) : String :=
  .ofList (chars 0 v)

end Json

end Gherkin
