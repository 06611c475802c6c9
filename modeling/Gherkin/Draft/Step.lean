import Gherkin.Document.Basic
import Gherkin.Line
import Gherkin.Violation

/-!
# Reading a step

An element that is being read looks at one line after the other and gives a `Verdict`: it takes
the line, it leaves the line to the elements around it, or the line breaks the grammar.

A step takes comments and one argument. A table goes on while rows and comments follow each other.
A DocString takes every line up to the next fence, and drops as much of the margin of each as the
opening fence has.
-/

namespace Gherkin

/-- What an element that is being read does with a line. -/
inductive Verdict (α : Type) where
  /-- The line belongs to the element, which is now `now`. -/
  | takes (now : α)
  /-- The element ends before the line. -/
  | leaves
  /-- The line breaks the grammar. -/
  | rejects (why : Violation)
  deriving DecidableEq, Repr

namespace Verdict

/-- Carries what takes the line into the element around it. -/
def map (f : α → β) : Verdict α → Verdict β
  | .takes a => .takes (f a)
  | .leaves => .leaves
  | .rejects v => .rejects v

/-- The element ends before the line. -/
def isLeaves : Verdict α → Bool
  | .leaves => true
  | _ => false

end Verdict

namespace Line

/-- The comment on a comment line. -/
def comment (l : Line) : Comment :=
  ⟨l.number, l.payload⟩

/-- The description on a line of free text. -/
def description (l : Line) : Description :=
  ⟨l.number, l.raw⟩

/-- The row on a line of a table. -/
def row (l : Line) : Row :=
  ⟨l.number, l.payload⟩

/-- The header on a header line. -/
def header (l : Line) : Header :=
  .start l.number l.payload

/-- The violation that no element takes the line while one of kind `parent` is read. -/
def unexpected (l : Line) (parent : Kind) : Violation :=
  .unexpectedLine l.number l.kind parent

end Line

/-- The table that begins with a row. -/
def Table.start (l : Line) : Table :=
  ⟨l.row, [], []⟩

/-- A DocString whose closing fence has not been read. -/
structure DocDraft where
  line : Nat
  margin : Nat
  opening : Fence
  contentType : Option String
  lines : List String
  deriving DecidableEq, Repr

namespace DocDraft

/-- The DocString that an opening fence begins. -/
def start (opening : Fence) (l : Line) : DocDraft :=
  ⟨l.number, l.margin, opening, if l.payload.isEmpty then none else some l.payload, []⟩

/-- The DocString with one more line, less the margin of the opening fence. -/
def add (d : DocDraft) (l : Line) : DocDraft :=
  { d with lines := d.lines ++ [.ofList (Text.dropMargin d.margin l.raw.toList)] }

/-- The DocString that the closing fence ends. -/
def close (d : DocDraft) (closing : Fence) : DocString :=
  ⟨d.line, d.opening, closing, d.contentType, d.lines⟩

end DocDraft

/-- A step that may still take lines. -/
inductive StepDraft where
  /-- No DocString is open. -/
  | plain (step : Step)
  /-- The lines go into a DocString. -/
  | quoting (step : Step) (doc : DocDraft)
  deriving DecidableEq, Repr

namespace StepDraft

/-- The step that a step line begins. -/
def start (keyword : StepKeyword) (l : Line) : StepDraft :=
  .plain ⟨keyword, l.number, l.payload, [], none⟩

/-- A plain step looks at a line. A comment right after a row goes with the table. -/
def feedPlain (s : Step) (l : Line) : Verdict StepDraft :=
  match l.kind, s.argument with
  | .comment, some (.table t) =>
    .takes (.plain { s with argument := some (.table (t.addComment l.comment)) })
  | .comment, _ => .takes (.plain (s.addComment l.comment))
  | .row, none => .takes (.plain { s with argument := some (.table (.start l)) })
  | .row, some (.table t) =>
    .takes (.plain { s with argument := some (.table (t.addRow l.row)) })
  | .row, some (.docString _) => .rejects (.duplicateArgument l.number l.kind s.line)
  | .fence f, none => .takes (.quoting s (.start f l))
  | .fence _, some _ => .rejects (.duplicateArgument l.number l.kind s.line)
  | _, _ => .leaves

/-- A DocString takes every line, and ends at a fence of either form. -/
def feedQuoting (s : Step) (d : DocDraft) (l : Line) : StepDraft :=
  match l.kind with
  | .fence f => .plain { s with argument := some (.docString (d.close f)) }
  | _ => .quoting s (d.add l)

/-- The step looks at a line. -/
def feed (s : StepDraft) (l : Line) : Verdict StepDraft :=
  match s with
  | .plain s => feedPlain s l
  | .quoting s d => .takes (feedQuoting s d l)

/-- The step, if it may end here. -/
def close : StepDraft → Except Violation Step
  | .plain s => .ok s
  | .quoting _ d => .error (.unterminatedDocString d.line)

end StepDraft

end Gherkin
