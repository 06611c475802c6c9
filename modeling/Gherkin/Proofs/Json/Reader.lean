import Gherkin.Json

/-!
# Reading JSON

A reader of JSON goes through a text character by character. Characters make tokens
(`Lexing.next?`), and tokens make a value (`Parsing.next?`): what is not yet complete waits in a
stack. The reader takes the whole of JSON, with any spacing, every way to escape a character and
every way to write a number; it gives a value only if the text is well formed from its beginning to
its end.
-/

namespace Gherkin

namespace Json

/-- A number `mantissa * 10 ^ exponent`. -/
structure Decimal where
  mantissa : Int
  exponent : Int
  deriving DecidableEq, Repr

/-- A value that is read. The fields of an object keep their order. -/
inductive Value where
  | null
  | boolean (b : Bool)
  | number (n : Decimal)
  | text (s : String)
  | list (items : List Value)
  | object (fields : List (String × Value))

/-! ## Numbers and literals -/

/-- The number in decimal digits, if there are any and nothing else. -/
def digits? (cs : List Char) : Option Nat :=
  if cs ≠ [] ∧ cs.all Char.isDigit then some (Nat.ofDigitChars 10 cs 0) else none

/-- The exponent that ends a number, 0 if there is none. -/
def exponent? : List Char → Option Int
  | [] => some 0
  | c :: cs =>
    if c = 'e' ∨ c = 'E' then
      match cs with
      | '-' :: ds => (digits? ds).map fun n => -n
      | '+' :: ds => (digits? ds).map fun n => n
      | ds => (digits? ds).map fun n => n
    else none

/-- A number without a sign: a whole part with no needless zero in front, a fraction or none, and
an exponent or none. -/
def unsigned? (cs : List Char) : Option Decimal :=
  let whole := cs.takeWhile Char.isDigit
  if whole.head? = some '0' ∧ whole ≠ ['0'] then none
  else (digits? whole).bind fun n =>
    match cs.dropWhile Char.isDigit with
    | '.' :: rest =>
      let fraction := rest.takeWhile Char.isDigit
      if fraction = [] then none
      else (exponent? (rest.dropWhile Char.isDigit)).map fun e =>
        ⟨Nat.ofDigitChars 10 fraction n, e - fraction.length⟩
    | rest => (exponent? rest).map fun e => ⟨n, e⟩

/-- A number. -/
def decimal? : List Char → Option Decimal
  | '-' :: cs => (unsigned? cs).map fun n => ⟨-n.mantissa, n.exponent⟩
  | cs => unsigned? cs

/-- The value that a word stands for: a literal or a number. -/
def word? (cs : List Char) : Option Value :=
  if cs = "null".toList then some .null
  else if cs = "true".toList then some (.boolean true)
  else if cs = "false".toList then some (.boolean false)
  else (decimal? cs).map .number

/-! ## Texts -/

/-- A character of a text as it is spelled: as itself, or by a code of 16 bits. -/
inductive Spelled where
  | plain (c : Char)
  | code (n : Nat)
  deriving DecidableEq, Repr

/-- The code is the first of a pair. -/
def isHighCode (n : Nat) : Prop :=
  0xd800 ≤ n ∧ n < 0xdc00

/-- The code is the second of a pair. -/
def isLowCode (n : Nat) : Prop :=
  0xdc00 ≤ n ∧ n < 0xe000

instance (n : Nat) : Decidable (isHighCode n) :=
  inferInstanceAs (Decidable (_ ∧ _))

instance (n : Nat) : Decidable (isLowCode n) :=
  inferInstanceAs (Decidable (_ ∧ _))

/-- The characters that are spelled, two codes for one beyond 16 bits. -/
def characters? : List Spelled → Option (List Char)
  | [] => some []
  | .plain c :: cs => (characters? cs).map (c :: ·)
  | .code n :: cs =>
    if isHighCode n then
      match cs with
      | .code m :: cs =>
        if isLowCode m then
          (characters? cs).map (.ofNat (0x10000 + 0x400 * (n - 0xd800) + (m - 0xdc00)) :: ·)
        else none
      | _ => none
    else if isLowCode n then none
    else (characters? cs).map (.ofNat n :: ·)

/-- The character that a letter after a backslash stands for. -/
def escape? : Char → Option Char
  | '"' => some '"'
  | '\\' => some '\\'
  | '/' => some '/'
  | 'b' => some '\x08'
  | 'f' => some '\x0c'
  | 'n' => some '\n'
  | 'r' => some '\r'
  | 't' => some '\t'
  | _ => none

/-- The value of a hexadecimal digit. -/
def hexDigit? (c : Char) : Option Nat :=
  if c.isDigit then some (c.toNat - '0'.toNat)
  else if 'a' ≤ c ∧ c ≤ 'f' then some (c.toNat - 'a'.toNat + 10)
  else if 'A' ≤ c ∧ c ≤ 'F' then some (c.toNat - 'A'.toNat + 10)
  else none

/-! ## Tokens -/

/-- A token. -/
inductive Token where
  | listStart
  | listEnd
  | objectStart
  | objectEnd
  | comma
  | colon
  | text (s : String)
  | word (v : Value)

/-- Where the reader is among the characters; what it has of a token it has backwards. -/
inductive Lexing where
  /-- Between tokens. -/
  | between
  /-- In a word. -/
  | word (before : List Char)
  /-- In a text. -/
  | text (before : List Spelled)
  /-- In a text after a backslash. -/
  | escape (before : List Spelled)
  /-- In a text within a code, with so many digits to come. -/
  | code (before : List Spelled) (value : Nat) (left : Nat)

/-- The character can stand between tokens. -/
def isSpace (c : Char) : Prop :=
  c = ' ' ∨ c = '\t' ∨ c = '\n' ∨ c = '\r'

/-- The character can be part of a word. -/
def inWord (c : Char) : Prop :=
  c.isAlphanum ∨ c = '+' ∨ c = '-' ∨ c = '.'

instance (c : Char) : Decidable (isSpace c) :=
  inferInstanceAs (Decidable (_ ∨ _))

instance (c : Char) : Decidable (inWord c) :=
  inferInstanceAs (Decidable (_ ∨ _))

namespace Lexing

/-- Takes a character that stands for itself or begins a text. -/
def mark? : Char → Option (List Token × Lexing)
  | '[' => some ([.listStart], .between)
  | ']' => some ([.listEnd], .between)
  | '\x7b' => some ([.objectStart], .between)
  | '\x7d' => some ([.objectEnd], .between)
  | ',' => some ([.comma], .between)
  | ':' => some ([.colon], .between)
  | '"' => some ([], .text [])
  | _ => none

/-- Takes a character between tokens. -/
def begin? (c : Char) : Option (List Token × Lexing) :=
  if isSpace c then some ([], .between)
  else if inWord c then some ([], .word [c])
  else mark? c

/-- Takes a character: the tokens that it completes, and where the reader is after it. -/
def next? : Lexing → Char → Option (List Token × Lexing)
  | .between, c => begin? c
  | .word before, c =>
    if inWord c then some ([], .word (c :: before))
    else do
      let v ← word? before.reverse
      let (tokens, after) ← begin? c
      return (.word v :: tokens, after)
  | .text before, c =>
    if c = '"' then (characters? before.reverse).map fun cs => ([.text (.ofList cs)], .between)
    else if c = '\\' then some ([], .escape before)
    else if c.toNat < 32 then none
    else some ([], .text (.plain c :: before))
  | .escape before, c =>
    if c = 'u' then some ([], .code before 0 4)
    else (escape? c).map fun e => ([], .text (.plain e :: before))
  | .code before value left, c =>
    (hexDigit? c).map fun digit =>
      let value := 16 * value + digit
      ([], if left ≤ 1 then .text (.code value :: before) else .code before value (left - 1))

/-- The tokens that the end of the text completes. -/
def end? : Lexing → Option (List Token)
  | .between => some []
  | .word before => (word? before.reverse).map fun v => [.word v]
  | _ => none

end Lexing

/-! ## Values -/

/-- A list or an object that waits for a value; what it has already it has backwards. -/
inductive Frame where
  | list (before : List Value)
  | object (before : List (String × Value)) (key : String)

/-- Where the reader is among the tokens, the frames around it the nearest first. -/
inductive Parsing where
  /-- A value is to come. -/
  | value (around : List Frame)
  /-- A list has begun: its first item is to come, or its end. -/
  | firstItem (around : List Frame)
  /-- An object has begun: its first name is to come, or its end. -/
  | firstName (around : List Frame)
  /-- Another name is to come. -/
  | name (before : List (String × Value)) (around : List Frame)
  /-- The colon after a name is to come. -/
  | colon (before : List (String × Value)) (key : String) (around : List Frame)
  /-- A value is complete. -/
  | complete (v : Value) (around : List Frame)

namespace Parsing

/-- Takes the first token of a value. -/
def begin? (around : List Frame) : Token → Option Parsing
  | .text s => some (.complete (.text s) around)
  | .word v => some (.complete v around)
  | .listStart => some (.firstItem around)
  | .objectStart => some (.firstName around)
  | _ => none

/-- Takes a token. -/
def next? : Parsing → Token → Option Parsing
  | .value around, token => begin? around token
  | .firstItem around, .listEnd => some (.complete (.list []) around)
  | .firstItem around, token => begin? (.list [] :: around) token
  | .firstName around, .objectEnd => some (.complete (.object []) around)
  | .firstName around, .text key => some (.colon [] key around)
  | .name before around, .text key => some (.colon before key around)
  | .colon before key around, .colon => some (.value (.object before key :: around))
  | .complete v (.list before :: around), .comma => some (.value (.list (v :: before) :: around))
  | .complete v (.list before :: around), .listEnd =>
    some (.complete (.list (v :: before).reverse) around)
  | .complete v (.object before key :: around), .comma =>
    some (.name ((key, v) :: before) around)
  | .complete v (.object before key :: around), .objectEnd =>
    some (.complete (.object ((key, v) :: before).reverse) around)
  | _, _ => none

/-- The value, if it is complete and nothing is around it. -/
def value? : Parsing → Option Value
  | .complete v [] => some v
  | _ => none

end Parsing

/-- Reads on to the end of the text. -/
def run? (l : Lexing) (p : Parsing) : List Char → Option Value
  | [] => do
    let tokens ← l.end?
    let p ← tokens.foldlM Parsing.next? p
    p.value?
  | c :: cs => do
    let (tokens, l) ← l.next? c
    let p ← tokens.foldlM Parsing.next? p
    run? l p cs

/-- The value that the text is, if it is well formed. -/
def read? (s : String) : Option Value :=
  run? .between (.value []) s.toList

namespace Value

/-- The value of a field. -/
def field? (name : String) : Value → Option Value
  | .object fields => fields.lookup name
  | _ => none

/-- The text that the value is. -/
def text? : Value → Option String
  | .text s => some s
  | _ => none

/-- The whole number that the value is. -/
def natural? : Value → Option Nat
  | .number n => if n.exponent = 0 ∧ 0 ≤ n.mantissa then some n.mantissa.toNat else none
  | _ => none

/-- The items of the list that the value is. -/
def items? : Value → Option (List Value)
  | .list items => some items
  | _ => none

/-- What a field that may be missing has: nothing if it is missing, but something well formed if
it is not. -/
def optional? (name : String) (read : Value → Option α) (v : Value) : Option (Option α) :=
  match v.field? name with
  | none => some none
  | some w => (read w).map some

end Value

end Json

end Gherkin
