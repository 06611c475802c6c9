import Gherkin.Document.Layout
import Gherkin.Proofs.Page.Lines

/-!
# What a document becomes when its page is read

Reading the page of a document keeps the document but for three things. Numbers are new, and
descriptions stand below new margins; a carriage return at the end of a line of a DocString is
lost; and a scenario right below a rule goes into the rule (`Item.absorb`). `Rewriting` is the part
of this that keeps every container in its place.
-/

namespace Gherkin

open Text

/-- A change of the texts of a document that keeps its containers. The header of a container is
changed by the depth of its line. -/
structure Rewriting where
  comment : Comment → Comment
  header : Nat → Header → Header
  step : Step → Step
  table : Table → Table

namespace Rewriting

variable (r : Rewriting)

def background (b : Background) : Background :=
  ⟨r.header 1 b.header, b.steps.map r.step⟩

def scenario (depth : Nat) (s : Scenario) : Scenario :=
  ⟨s.keyword, r.header depth s.header, s.steps.map r.step⟩

def examples (e : Examples) : Examples :=
  ⟨e.keyword, r.header 2 e.header, e.table.map r.table⟩

def outline (o : Outline) : Outline :=
  ⟨o.keyword, r.header 1 o.header, o.steps.map r.step, r.examples o.examples⟩

def rule (g : Rule) : Rule :=
  ⟨r.header 1 g.header, g.scenarios.map (r.scenario 2)⟩

def item : Item → Item
  | .scenario s => .scenario (r.scenario 1 s)
  | .rule g => .rule (r.rule g)
  | .outline o => .outline (r.outline o)

def feature (f : Feature) : Feature :=
  ⟨r.header 0 f.header, f.background.map r.background, f.items.map r.item⟩

def document (d : Document) : Document :=
  ⟨d.comments.map r.comment, r.feature d.feature⟩

end Rewriting

/-! ## Documents without numbers -/

def Comment.unnumbered (c : Comment) : Comment :=
  c.renumber fun _ => 0

def Table.unnumbered (t : Table) : Table :=
  t.renumber fun _ => 0

def Step.unnumbered (s : Step) : Step :=
  s.renumber fun _ => 0

/-- The header with no number, and with its descriptions without white space at their ends. -/
def Header.bare (h : Header) : Header :=
  ⟨0, h.title, h.descriptions.map fun d => ⟨0, d.text⟩, h.comments.map Comment.unnumbered⟩

/-- Erases the numbers of lines, and the margins of descriptions. -/
def Rewriting.bare : Rewriting where
  comment := Comment.unnumbered
  header _ h := h.bare
  step := Step.unnumbered
  table := Table.unnumbered

/-- The document without the numbers of its lines, and with the text of each description in the
place of its line. -/
def Document.bare (d : Document) : Document :=
  Rewriting.bare.document d

/-! ## Documents as they are read again -/

/-- The header as it is read from its page, written at the depth. -/
def Header.reread (depth : Nat) (h : Header) : Header :=
  ⟨0, h.title,
    h.descriptions.map fun d => ⟨0, .ofList (indent (depth + 1) ++ trim d.raw.toList)⟩,
    h.comments.map Comment.unnumbered⟩

/-- The DocString as it is read from its page. -/
def DocString.reread (d : DocString) : DocString :=
  { d with line := 0, lines := d.lines.map fun s => .ofList (chomp s.toList) }

def Argument.reread : Argument → Argument
  | .table t => .table t.unnumbered
  | .docString d => .docString d.reread

/-- The step as it is read from its page. -/
def Step.reread (s : Step) : Step :=
  { s.unnumbered with argument := s.argument.map Argument.reread }

/-- What is read of the page of each container on its own. -/
def Rewriting.reread : Rewriting where
  comment := Comment.unnumbered
  header := Header.reread
  step := Step.reread
  table := Table.unnumbered

/-- One more item is read: a scenario right below a rule goes into the rule. -/
def Item.absorb (items : List Item) (i : Item) : List Item :=
  match items.getLast?, i with
  | some (.rule r), .scenario s =>
    items.dropLast ++ [.rule { r with scenarios := r.scenarios ++ [s] }]
  | _, _ => items ++ [i]

/-- The items, each read after the ones before it. -/
def Item.absorbAll (items : List Item) : List Item :=
  items.foldl Item.absorb []

/-- The document in which each rule has taken the scenarios right below it. -/
def Document.absorbed (d : Document) : Document :=
  { d with feature := { d.feature with items := Item.absorbAll d.feature.items } }

/-- The document as it is read from its page, with no numbers. -/
def Document.reread (d : Document) : Document :=
  (Rewriting.reread.document d).absorbed

end Gherkin
