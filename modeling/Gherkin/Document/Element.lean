import Gherkin.Document.Layout

/-!
# Elements

Every element of a feature has a line, comments, a category and a page of its own, and it holds
other elements, its parts, in the order of the layout.
-/

namespace Gherkin

/-- An element of a feature. -/
inductive Element where
  | feature (feature : Feature)
  | background (background : Background)
  | rule (rule : Rule)
  | scenario (scenario : Scenario)
  | outline (outline : Outline)
  | examples (examples : Examples)
  | step (step : Step)
  | table (table : Table)
  | docString (docString : DocString)
  | comment (comment : Comment)
  | description (description : Description)
  deriving DecidableEq, Repr

/-- An argument as an element. -/
def Argument.element : Argument → Element
  | .table t => .table t
  | .docString d => .docString d

/-- An item as an element. -/
def Item.element : Item → Element
  | .scenario s => .scenario s
  | .rule r => .rule r
  | .outline o => .outline o

namespace Element

/-- The header of a container. -/
def header? : Element → Option Header
  | .feature f => some f.header
  | .background b => some b.header
  | .rule r => some r.header
  | .scenario s => some s.header
  | .outline o => some o.header
  | .examples e => some e.header
  | _ => none

/-- The first line of the element. -/
def line : Element → Nat
  | .feature f => f.header.line
  | .background b => b.header.line
  | .rule r => r.header.line
  | .scenario s => s.header.line
  | .outline o => o.header.line
  | .examples e => e.header.line
  | .step s => s.line
  | .table t => t.line
  | .docString d => d.line
  | .comment c => c.line
  | .description d => d.line

/-- The comments that belong to the element itself. -/
def comments (e : Element) : List Comment :=
  match e with
  | .step s => s.comments
  | .table t => t.comments
  | .docString _ | .comment _ | .description _ => []
  | e => (e.header?.map Header.comments).getD []

/-- The role of the element. -/
def category : Element → Category
  | .step _ => .step
  | .table _ | .docString _ => .data
  | .comment _ => .comment
  | .description _ => .description
  | _ => .container

/-- The page of the element alone. -/
def page : Element → Page
  | .feature f => f.page
  | .background b => b.page
  | .rule r => r.page
  | .scenario s => s.page
  | .outline o => o.page
  | .examples e => e.page
  | .step s => s.page
  | .table t => t.page
  | .docString d => d.page
  | .comment c => c.page
  | .description d => d.page

/-- The descriptions of a container. -/
def descriptions (e : Element) : List Element :=
  ((e.header?.map Header.descriptions).getD []).map .description

/-- What the element holds besides its comments and descriptions. -/
def content : Element → List Element
  | .feature f => (f.background.map .background).toList ++ f.items.map Item.element
  | .background b => b.steps.map .step
  | .rule r => r.scenarios.map .scenario
  | .scenario s => s.steps.map .step
  | .outline o => o.steps.map .step ++ [.examples o.examples]
  | .examples e => (e.table.map .table).toList
  | .step s => (s.argument.map Argument.element).toList
  | _ => []

/-- The elements that the element holds, its comments aside. -/
def parts (e : Element) : List Element :=
  e.descriptions ++ e.content

end Element

end Gherkin
