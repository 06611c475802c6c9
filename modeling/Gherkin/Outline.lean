import Gherkin.Document.Basic

/-!
# Outlines filled with data

The first row of a table of examples names its columns, every other row fills the outline once:
each name in the title and in the steps' texts gives way to the value of the row under the first
column of that name. Arguments of steps stay as they are. A row that has not one cell a column is
an error, and so is a name that is no column; the first row with an error decides, and in a row
its width comes first, then the title, then the steps.
-/

namespace Gherkin

/-- Why an outline cannot be filled. -/
inductive FillError where
  /-- A text names a column that the examples do not have. -/
  | unknownColumn (name : String) (line : Nat) (columns : List String)
  /-- A row has not one cell a column. -/
  | rowWidth (line expected found : Nat)
  deriving DecidableEq, Repr

namespace FillError

/-- The text of the error. -/
def message : FillError → String
  | .unknownColumn name line columns =>
    "placeholder '<" ++ name ++ s!">' at line {line} not found in Examples table; "
      ++ "available columns: [" ++ String.intercalate ", " columns ++ "]"
  | .rowWidth line expected found =>
    s!"Examples row at line {line} has {found} cells but the header has {expected}"

end FillError

namespace Placeholder

/-- Puts the values of a row in place of the names in a text that stands on the line. -/
def substitute (text : String) (headers row : List String) (line : Nat) :
    Except FillError String :=
  match fill (cellUnder? headers row) (tokens text.toList) with
  | .ok cs => .ok (.ofList cs)
  | .error name => .error (.unknownColumn name line headers)

end Placeholder

/-- An outline filled with one row of its examples. -/
structure Instance where
  title : String
  steps : List Step
  row : Nat
  line : Nat
  deriving DecidableEq, Repr

/-- The step with the values of a row in its text. -/
def Step.fill (s : Step) (headers row : List String) : Except FillError Step := do
  return { s with text := ← Placeholder.substitute s.text headers row s.line }

namespace Outline

/-- The outline filled with a row, which has the number `index`. -/
def fill (o : Outline) (headers : List String) (index : Nat) (row : Row) :
    Except FillError Instance := do
  let cells := row.cells
  if cells.length ≠ headers.length then
    throw (.rowWidth row.line headers.length cells.length)
  let title ← Placeholder.substitute o.header.title headers cells o.header.line
  let steps ← o.steps.mapM fun s => s.fill headers cells
  return ⟨title, steps, index, row.line⟩

/-- The outline filled with rows that are numbered from `index` on. -/
def fillFrom (o : Outline) (headers : List String) (index : Nat) :
    List Row → Except FillError (List Instance)
  | [] => .ok []
  | r :: rs => do return (← o.fill headers index r) :: (← o.fillFrom headers (index + 1) rs)

/-- The outline filled with each row of its examples. -/
def instances (o : Outline) : Except FillError (List Instance) :=
  match o.examples.table with
  | none => .ok []
  | some t => o.fillFrom t.first.cells 0 t.others

end Outline

end Gherkin
