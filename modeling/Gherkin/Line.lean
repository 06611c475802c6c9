import Gherkin.Kind
import Gherkin.Text.Lines

/-!
# Lines

A line that is not blank is read into its kind and payload. Each kind has one shape, stated on the
text without white space at its ends:

* a step is its keyword, white space, and a rest without line feed;
* a header is its keyword, a colon, white space around the colon if any, and a rest without line
  feed;
* a comment, a row and a fence are known by the mark in front;
* a description is a line that has none of these shapes.
-/

namespace Gherkin

/-- A line that is not blank: its kind, what it carries, its number and the text itself. -/
structure Line where
  kind : Kind
  payload : String
  number : Nat
  raw : String
  deriving DecidableEq, Repr

namespace Text

/-- What follows `word` at the beginning of `cs`. -/
def after? : List Char → List Char → Option (List Char)
  | [], cs => some cs
  | _ :: _, [] => none
  | w :: ws, c :: cs => if w = c then after? ws cs else none

/-- The text, if it has no line feed. -/
def oneLine? (cs : List Char) : Option (List Char) :=
  if cs.contains '\n' then none else some cs

/-- What follows white space, of which there has to be some. -/
def afterGap? : List Char → Option (List Char)
  | [] => none
  | c :: cs => if isBlank c then some (skipBlank cs) else none

theorem after?_eq_some_iff {word cs rest : List Char} :
    after? word cs = some rest ↔ cs = word ++ rest := by
  induction word generalizing cs with
  | nil => simp [after?]
  | cons w ws ih =>
    cases cs with
    | nil => simp [after?]
    | cons c cs =>
      by_cases h : w = c
      · simp [after?, h, ih]
      · simp [after?, h, Ne.symm h]

end Text

namespace Kind

/-- The payload of `cs`, a text without white space at its ends, if it has the shape of a step
with the keyword. -/
def stepPayload? (k : StepKeyword) (cs : List Char) : Option (List Char) := do
  Text.oneLine? (← Text.afterGap? (← Text.after? k.text.toList cs))

/-- The payload of `cs`, a text without white space at its ends, if it has the shape of a header
with the keyword of `k`. -/
def headerPayload? (k : Kind) (cs : List Char) : Option (List Char) := do
  let rest ← Text.after? k.keyword.toList cs
  Text.oneLine? (Text.skipBlank (← Text.after? [':'] (Text.skipBlank rest)))

/-- The payload of a comment: what follows the mark, less one space. -/
def commentPayload? (cs : List Char) : Option (List Char) :=
  match Text.after? ['#'] cs with
  | some (' ' :: rest) => some (Text.trimEnd rest)
  | some rest => some (Text.trimEnd rest)
  | none => none

/-- The payload of a row: the whole text. -/
def rowPayload? (cs : List Char) : Option (List Char) :=
  (Text.after? ['|'] cs).map fun _ => cs

/-- The payload of a fence: what follows the mark, without white space at its ends. -/
def fencePayload? (f : Fence) (cs : List Char) : Option (List Char) :=
  (Text.after? f.text.toList cs).map Text.trim

/-- The kinds that a shape tells. -/
def shaped : List Kind :=
  StepKeyword.all.map .step ++ headers ++ [.comment, .row, .fence .quotes, .fence .backticks]

/-- The payload of `cs`, a text without white space at its ends, if it has the shape of the kind.
A description has no shape. -/
def payload? (k : Kind) (cs : List Char) : Option (List Char) :=
  match k with
  | .step s => stepPayload? s cs
  | .comment => commentPayload? cs
  | .row => rowPayload? cs
  | .fence f => fencePayload? f cs
  | .description => none
  | k => headerPayload? k cs

/-- The kind and payload of `cs`, a text without white space at its ends, by the shape it has. -/
def ofShape? (cs : List Char) : Option (Kind × List Char) :=
  shaped.findSome? fun k => (k.payload? cs).map (k, ·)

end Kind

namespace Line

/-- Reads a line; a blank one is none. -/
def read? (raw : String) (number : Nat) : Option Line :=
  let cs := Text.trim raw.toList
  if cs.isEmpty then none
  else match Kind.ofShape? cs with
    | some (kind, payload) => some ⟨kind, .ofList payload, number, raw⟩
    | none => some ⟨.description, raw, number, raw⟩

/-- How many white-space characters stand in front of the line. -/
def margin (l : Line) : Nat :=
  Text.margin l.raw.toList

/-- Reads lines that are numbered from `number` on, and leaves out the blank ones. -/
def readFrom (number : Nat) : List String → List Line
  | [] => []
  | raw :: raws =>
    match read? raw number with
    | some l => l :: readFrom (number + 1) raws
    | none => readFrom (number + 1) raws

/-- Reads lines that are numbered from 1 on, and leaves out the blank ones. -/
def readAll (raws : List String) : List Line :=
  readFrom 1 raws

/-- Reads the lines of a text. -/
def ofText (text : String) : List Line :=
  readAll (Text.lines text)

end Line

end Gherkin
