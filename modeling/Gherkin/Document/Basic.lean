import Gherkin.Kind
import Gherkin.Placeholder
import Gherkin.Text.Cells

/-!
# Documents

A document is a feature and the comments before it. The feature holds an optional background and
its items: scenarios, rules with scenarios of their own, and outlines with their examples. Every
element knows the numbers of the lines it was read from. What can be worked out from the rest is
not stored: the names of placeholders in a step, the cells of a row, the line of a table.
-/

namespace Gherkin

/-- A comment, without its mark. -/
structure Comment where
  line : Nat
  text : String
  deriving DecidableEq, Repr

/-- A line of free text below a header, as it stands in the file. -/
structure Description where
  line : Nat
  raw : String
  deriving DecidableEq, Repr

/-- A row of a table, white space at its ends dropped. -/
structure Row where
  line : Nat
  text : String
  deriving DecidableEq, Repr

/-- A table: one row or more, and the comments among them. -/
structure Table where
  first : Row
  others : List Row
  comments : List Comment
  deriving DecidableEq, Repr

/-- A text between two fences, which may differ. -/
structure DocString where
  line : Nat
  opening : Fence
  closing : Fence
  contentType : Option String
  lines : List String
  deriving DecidableEq, Repr

/-- What a step carries besides its text. -/
inductive Argument where
  | table (table : Table)
  | docString (docString : DocString)
  deriving DecidableEq, Repr

/-- A step. -/
structure Step where
  keyword : StepKeyword
  line : Nat
  text : String
  comments : List Comment
  argument : Option Argument
  deriving DecidableEq, Repr

/-- The header of a container: its line, its title, and the lines that belong to it. -/
structure Header where
  line : Nat
  title : String
  descriptions : List Description
  comments : List Comment
  deriving DecidableEq, Repr

/-- The steps before every scenario of a feature. -/
structure Background where
  header : Header
  steps : List Step
  deriving DecidableEq, Repr

/-- A concrete sequence of steps. -/
structure Scenario where
  keyword : ScenarioKeyword
  header : Header
  steps : List Step
  deriving DecidableEq, Repr

/-- The data of an outline. -/
structure Examples where
  keyword : ExamplesKeyword
  header : Header
  table : Option Table
  deriving DecidableEq, Repr

/-- A sequence of steps with placeholders, and the data to fill them. -/
structure Outline where
  keyword : OutlineKeyword
  header : Header
  steps : List Step
  examples : Examples
  deriving DecidableEq, Repr

/-- A business rule and the scenarios that illustrate it. -/
structure Rule where
  header : Header
  scenarios : List Scenario
  deriving DecidableEq, Repr

/-- What a feature holds besides its background. -/
inductive Item where
  | scenario (scenario : Scenario)
  | rule (rule : Rule)
  | outline (outline : Outline)
  deriving DecidableEq, Repr

/-- A feature. -/
structure Feature where
  header : Header
  background : Option Background
  items : List Item
  deriving DecidableEq, Repr

/-- A feature and the comments before it. -/
structure Document where
  comments : List Comment
  feature : Feature
  deriving DecidableEq, Repr

/-- The free text without white space at its ends. -/
def Description.text (d : Description) : String :=
  Text.trimmed d.raw

namespace Row

/-- The cells of the row. -/
def cells (r : Row) : List String :=
  Text.cells r.text

end Row

namespace Table

/-- The rows of the table. -/
def rows (t : Table) : List Row :=
  t.first :: t.others

/-- The line of the table is that of its first row. -/
def line (t : Table) : Nat :=
  t.first.line

/-- The table with one more row. -/
def addRow (t : Table) (r : Row) : Table :=
  { t with others := t.others ++ [r] }

/-- The table with one more comment. -/
def addComment (t : Table) (c : Comment) : Table :=
  { t with comments := t.comments ++ [c] }

end Table

/-- The lines of the text, with line feeds between them. -/
def DocString.content (d : DocString) : String :=
  String.intercalate "\n" d.lines

/-- The line an argument begins on. -/
def Argument.line : Argument → Nat
  | .table t => t.line
  | .docString d => d.line

namespace Step

/-- The names of the placeholders in the step's text. -/
def parameters (s : Step) : List String :=
  Placeholder.names s.text

/-- The step with one more comment. -/
def addComment (s : Step) (c : Comment) : Step :=
  { s with comments := s.comments ++ [c] }

end Step

namespace Header

/-- A header that nothing belongs to yet. -/
def start (line : Nat) (title : String) : Header :=
  ⟨line, title, [], []⟩

/-- The header with one more description. -/
def addDescription (h : Header) (d : Description) : Header :=
  { h with descriptions := h.descriptions ++ [d] }

/-- The header with one more comment. -/
def addComment (h : Header) (c : Comment) : Header :=
  { h with comments := h.comments ++ [c] }

end Header

namespace Item

/-- The line of the item's header. -/
def line : Item → Nat
  | .scenario s => s.header.line
  | .rule r => r.header.line
  | .outline o => o.header.line

/-- The steps of the item. -/
def steps : Item → List Step
  | .scenario s => s.steps
  | .rule r => r.scenarios.flatMap Scenario.steps
  | .outline o => o.steps

/-- The item, if it is an outline. -/
def outline? : Item → Option Outline
  | .outline o => some o
  | _ => none

end Item

namespace Feature

/-- The steps of the background, if there is one. -/
def backgroundSteps (f : Feature) : List Step :=
  match f.background with
  | some b => b.steps
  | none => []

/-- The steps of the feature: those of its background, then those of its items. -/
def steps (f : Feature) : List Step :=
  f.backgroundSteps ++ f.items.flatMap Item.steps

/-- The outlines of the feature. -/
def outlines (f : Feature) : List Outline :=
  f.items.filterMap Item.outline?

end Feature

end Gherkin
