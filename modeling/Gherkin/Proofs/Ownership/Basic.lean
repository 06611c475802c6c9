import Gherkin.Draft

/-!
# Who owns a line

The lines of a document are cut into pieces, a DocString with its fences being one piece, and the
pieces at the headers into sections. What a section says of its container is stated here without
reading it line by line: the descriptions and the steps of a container are those of its section,
the argument of a step is the data that follows it, and a comment goes by the piece before it that
is no comment (`commentsAfter`).
-/

namespace Gherkin

/-- A line outside of DocStrings, or a DocString from its opening to its closing fence. -/
inductive Piece where
  | line (l : Line)
  | quote (opening : Fence) (first : Line) (content : List Line) (closing : Fence) (last : Line)

namespace Piece

/-- The lines of the piece. -/
def lines : Piece → List Line
  | .line l => [l]
  | .quote _ first content _ last => first :: content ++ [last]

/-- A line that is no fence, or lines between two fences none of which is a fence. -/
def Proper : Piece → Prop
  | .line l => ∀ f, l.kind ≠ .fence f
  | .quote opening first content closing last =>
    first.kind = .fence opening ∧ last.kind = .fence closing ∧
      ∀ l ∈ content, ∀ f, l.kind ≠ .fence f

/-- The kind of the first line of the piece. -/
def kind : Piece → Kind
  | .line l => l.kind
  | .quote opening _ _ _ _ => .fence opening

/-- The piece is a row or a DocString. -/
def isData (p : Piece) : Bool :=
  p.kind.category = .data

/-- The piece is a comment, a row or a DocString. -/
def follows (p : Piece) : Bool :=
  p.kind.category = .comment || p.isData

def comment? : Piece → Option Comment
  | .line l => if l.kind = .comment then some l.comment else none
  | .quote .. => none

def description? : Piece → Option Description
  | .line l => if l.kind = .description then some l.description else none
  | .quote .. => none

def row? : Piece → Option Row
  | .line l => if l.kind = .row then some l.row else none
  | .quote .. => none

/-- The lines between the fences, each without the margin of the opening fence. -/
def docString? : Piece → Option DocString
  | .line _ => none
  | .quote opening first content closing _ => some
    { line := first.number
      opening
      closing
      contentType := if first.payload.isEmpty then none else some first.payload
      lines := content.map fun l => .ofList (Text.dropMargin first.margin l.raw.toList) }

end Piece

/-- The comments that follow a piece of a kind that `owner` tells, with only comments in between;
`before` is the kind of the last piece before them all that is no comment. -/
def commentsAfter (owner : Kind → Bool) (before : Kind) : List Piece → List Comment
  | [] => []
  | p :: ps =>
    match p.comment? with
    | some c => if owner before then c :: commentsAfter owner before ps
        else commentsAfter owner before ps
    | none => commentsAfter owner p.kind ps

/-- A container owns the comments after its header and after its descriptions. -/
def Kind.ownsForContainer (k : Kind) : Bool :=
  k.category = .container || k = .description

/-- A step owns the comments after its line and after its DocString. -/
def Kind.ownsForStep : Kind → Bool
  | .step _ | .fence _ => true
  | _ => false

/-- A table owns the comments after its rows. -/
def Kind.ownsForTable (k : Kind) : Bool :=
  k = .row

/-- The table of the rows among the pieces. -/
def tableOf (before : Kind) (ps : List Piece) : Option Table :=
  match ps.filterMap Piece.row? with
  | [] => none
  | first :: others => some ⟨first, others, commentsAfter Kind.ownsForTable before ps⟩

/-- The rows and DocStrings among the pieces. -/
def dataOf (ps : List Piece) : List Piece :=
  ps.filter Piece.isData

/-- A line of a step, with the comments and the data up to the next piece that is neither. -/
structure Stretch where
  keyword : StepKeyword
  line : Line
  after : List Piece

namespace Stretch

/-- The argument of the step: the rows after it, or the DocString after it. -/
def argument (s : Stretch) : Option Argument :=
  match tableOf (.step s.keyword) s.after with
  | some t => some (.table t)
  | none => (s.after.findSome? Piece.docString?).map .docString

/-- The step on the line. -/
def step (s : Stretch) : Step where
  keyword := s.keyword
  line := s.line.number
  text := s.line.payload
  comments := commentsAfter Kind.ownsForStep (.step s.keyword) s.after
  argument := s.argument

/-- The data is one run of rows or one DocString, or there is none. -/
def SingleArgument (s : Stretch) : Prop :=
  (∀ p ∈ dataOf s.after, p.kind = .row) ∨ ∃ p, dataOf s.after = [p]

end Stretch

/-- The stretches of the steps among the pieces, in order. -/
def stretches : List Piece → List Stretch
  | [] => []
  | .line l :: ps =>
    match l.kind with
    | .step k => ⟨k, l, ps.takeWhile Piece.follows⟩ :: stretches ps
    | _ => stretches ps
  | .quote .. :: ps => stretches ps

/-- A header line and the pieces up to the next header. -/
structure Section where
  header : Line
  body : List Piece

namespace Section

/-- The lines of the section. -/
def lines (s : Section) : List Line :=
  s.header :: s.body.flatMap Piece.lines

/-- The steps of the section. -/
def steps (s : Section) : List Step :=
  (stretches s.body).map Stretch.step

/-- The header with the descriptions of the section and the comments after them and after the
header line. -/
def ownHeader (s : Section) : Header where
  line := s.header.number
  title := s.header.payload
  descriptions := s.body.filterMap Piece.description?
  comments := commentsAfter Kind.ownsForContainer s.header.kind s.body

/-- One header, and below it none. -/
def Proper (s : Section) : Prop :=
  s.header.kind.category = .container ∧
    ∀ p ∈ s.body, p.Proper ∧ p.kind.category ≠ .container

/-- All data is in arguments of steps, one argument to a step. -/
def DataInSteps (s : Section) : Prop :=
  dataOf s.body = (stretches s.body).flatMap (fun t => dataOf t.after) ∧
    ∀ t ∈ stretches s.body, t.SingleArgument

/-- All data is in one run of rows, comments aside, and there are no steps. -/
def DataInTable (s : Section) : Prop :=
  ∃ above rows below, s.body = above ++ rows ++ below ∧
    (∀ p ∈ rows, p.kind = .row ∨ p.kind = .comment) ∧
    ∀ p ∈ above ++ below, p.kind = .description ∨ p.kind = .comment

end Section

/-- A container of a document on its own, without the containers below it. -/
structure Container where
  kind : Kind
  header : Header
  steps : List Step
  table : Option Table

/-- The container that the section says. -/
def Section.container (s : Section) : Container where
  kind := s.header.kind
  header := s.ownHeader
  steps := s.steps
  table :=
    match s.header.kind with
    | .examples _ => tableOf s.header.kind s.body
    | _ => none

/-- Each piece of data in the section belongs to a step or, below the header of a block of
examples, to its table. -/
def Section.Regular (s : Section) : Prop :=
  match s.header.kind with
  | .examples _ => s.DataInTable
  | _ => s.DataInSteps

/-! The containers of a document, each before the containers below it. -/

def Background.container (b : Background) : Container :=
  ⟨.background, b.header, b.steps, none⟩

def Scenario.container (s : Scenario) : Container :=
  ⟨.scenario s.keyword, s.header, s.steps, none⟩

def Examples.container (e : Examples) : Container :=
  ⟨.examples e.keyword, e.header, [], e.table⟩

def Item.containers : Item → List Container
  | .scenario s => [s.container]
  | .rule r => ⟨.rule, r.header, [], none⟩ :: r.scenarios.map Scenario.container
  | .outline o => [⟨.outline o.keyword, o.header, o.steps, none⟩, o.examples.container]

def Feature.container (f : Feature) : Container :=
  ⟨.feature, f.header, [], none⟩

/-- An item after another one: a scenario right below a rule would belong to the rule. -/
def Item.Apart : Item → Item → Prop
  | .rule _, .scenario _ => False
  | _, _ => True

/-- What stands below the header of a feature. -/
inductive Entry where
  | background (background : Background)
  | item (item : Item)

namespace Entry

def background? : Entry → Option Background
  | .background b => some b
  | .item _ => none

def item? : Entry → Option Item
  | .background _ => none
  | .item i => some i

def containers : Entry → List Container
  | .background b => [b.container]
  | .item i => i.containers

/-- Entries right after each other, with nothing between two items. -/
def Apart : Entry → Entry → Prop
  | .item i, .item j => i.Apart j
  | _, _ => True

/-- A background has steps, and only such as state what is given; only a rule has scenarios under
the other keyword. -/
def Legal : Entry → Prop
  | .background b => b.steps ≠ [] ∧ ∀ s ∈ b.steps, Kind.background.holds s.keyword = true
  | .item (.scenario s) => s.keyword = .scenario
  | .item _ => True

end Entry

end Gherkin
