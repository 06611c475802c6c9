import Gherkin.Document.Basic
import Gherkin.Page

/-!
# The layout of documents

Every element has a page. A container writes its header and, one level deeper, its comments, its
descriptions and what it holds; a feature writes its background before its items. A step writes
its comments and its argument one level deeper, a table its comments after its rows, and a
DocString its lines as they are between its fences.
-/

namespace Gherkin

/-- The page of a comment. -/
def Comment.page (c : Comment) : Page :=
  .keywordLine .comment c.text

/-- The page of a description. -/
def Description.page (d : Description) : Page :=
  .line d.text

/-- The page of a table. -/
def Table.page (t : Table) : Page :=
  (t.rows.flatMap fun r => Page.line r.text) ++ t.comments.flatMap Comment.page

/-- The page of a DocString. -/
def DocString.page (d : DocString) : Page :=
  .keywordLine (.fence d.opening) (d.contentType.getD "") ++ d.lines.flatMap Page.line
    ++ .line d.closing.text

/-- The page of an argument. -/
def Argument.page : Argument → Page
  | .table t => t.page
  | .docString d => d.page

/-- The page of what may be missing: nothing, if it is. -/
def Page.ofOption (page : α → Page) : Option α → Page
  | some a => page a
  | none => []

/-- The page of a step. -/
def Step.page (s : Step) : Page :=
  .keywordLine (.step s.keyword) s.text
    ++ Page.nested (s.comments.flatMap Comment.page ++ .ofOption Argument.page s.argument)

/-- The page of a container whose header is of the kind and that holds `parts`. -/
def Header.page (h : Header) (kind : Kind) (parts : Page) : Page :=
  .keywordLine kind h.title
    ++ Page.nested (h.comments.flatMap Comment.page ++ h.descriptions.flatMap Description.page
      ++ parts)

/-- The page of a background. -/
def Background.page (b : Background) : Page :=
  b.header.page .background (b.steps.flatMap Step.page)

/-- The page of a scenario. -/
def Scenario.page (s : Scenario) : Page :=
  s.header.page (.scenario s.keyword) (s.steps.flatMap Step.page)

/-- The page of a block of examples. -/
def Examples.page (e : Examples) : Page :=
  e.header.page (.examples e.keyword) (.ofOption Table.page e.table)

/-- The page of an outline. -/
def Outline.page (o : Outline) : Page :=
  o.header.page (.outline o.keyword) (o.steps.flatMap Step.page ++ o.examples.page)

/-- The page of a rule. -/
def Rule.page (r : Rule) : Page :=
  r.header.page .rule (r.scenarios.flatMap Scenario.page)

/-- The page of an item. -/
def Item.page : Item → Page
  | .scenario s => s.page
  | .rule r => r.page
  | .outline o => o.page

/-- The page of a feature. -/
def Feature.page (f : Feature) : Page :=
  f.header.page .feature (.ofOption Background.page f.background ++ f.items.flatMap Item.page)

/-- The page of a document. -/
def Document.page (d : Document) : Page :=
  d.comments.flatMap Comment.page ++ d.feature.page

/-- The document in its canonical layout. -/
def Document.render (d : Document) : String :=
  d.page.text

end Gherkin
