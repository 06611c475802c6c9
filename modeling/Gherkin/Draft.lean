import Gherkin.Draft.Part

/-!
# Reading a document

A draft is a document of which some lines have been read. `Draft.feed` reads one more line,
`Draft.finish` ends the document, and `Document.ofLines` runs through all lines. A line goes to
the innermost element that is open; what that leaves, the feature gets after the element has
ended. So reading stops at the first line that breaks the grammar, and nothing after it counts.
-/

namespace Gherkin

/-- A feature that may still take lines. -/
structure FeatureDraft where
  header : Header
  background : Option Background
  items : List Item
  part : Part
  deriving DecidableEq, Repr

namespace FeatureDraft

/-- The feature that a header line begins. -/
def start (l : Line) : FeatureDraft :=
  ⟨l.header, none, [], .opening⟩

/-- The feature with one more item, and with no part that is being read. -/
def addItem (f : FeatureDraft) (i : Item) : FeatureDraft :=
  { f with items := f.items ++ [i], part := .opening }

/-- The feature after its current part has ended, if that may end here. -/
def settle (f : FeatureDraft) : Except Violation FeatureDraft :=
  match f.part with
  | .opening => .ok f
  | .background b => do
    return { f with background := some (← b.closeBackground), part := .opening }
  | .scenario s => do return f.addItem (.scenario (← s.close))
  | .rule r => do return f.addItem (.rule (← r.close))
  | .outline o => do return f.addItem (.outline (← o.close))

/-- The feature looks at a line that no part of it takes. -/
def accept (f : FeatureDraft) (l : Line) : Except Violation FeatureDraft :=
  match l.kind with
  | .description => .ok { f with header := f.header.addDescription l.description }
  | .comment => .ok { f with header := f.header.addComment l.comment }
  | .background =>
    match f.background with
    | some b => .error (.duplicateBackground l.number b.header.line)
    | none => .ok { f with part := .background (.start l) }
  | .scenario .scenario => .ok { f with part := .scenario (.start .scenario l) }
  | .rule => .ok { f with part := .rule (.start l) }
  | .outline k => .ok { f with part := .outline (.start k l) }
  | _ => .error (l.unexpected .feature)

/-- The feature looks at a line. -/
def feed (f : FeatureDraft) (l : Line) : Except Violation FeatureDraft :=
  match f.part.feed l with
  | .takes p => .ok { f with part := p }
  | .leaves => do (← f.settle).accept l
  | .rejects v => .error v

/-- The feature, if the input may end here. -/
def finish (f : FeatureDraft) : Except Violation Feature := do
  let f ← f.settle
  return ⟨f.header, f.background, f.items⟩

end FeatureDraft

/-- A document that may still take lines. -/
inductive Draft where
  /-- Only comments have been read. -/
  | preamble (comments : List Comment)
  /-- The header of the feature has been read. -/
  | body (comments : List Comment) (feature : FeatureDraft)
  deriving DecidableEq, Repr

namespace Draft

/-- The draft before the first line. -/
def empty : Draft :=
  .preamble []

/-- The draft after one more line. -/
def feed : Draft → Line → Except Violation Draft
  | .preamble comments, l =>
    match l.kind with
    | .comment => .ok (.preamble (comments ++ [l.comment]))
    | .feature => .ok (.body comments (.start l))
    | k => .error (.expectedFeature l.number k)
  | .body comments f, l => do return .body comments (← f.feed l)

/-- The draft after more lines. -/
def feedAll : Draft → List Line → Except Violation Draft
  | d, [] => .ok d
  | d, l :: ls => do (← d.feed l).feedAll ls

/-- The document, if the input may end here. -/
def finish : Draft → Except Violation Document
  | .preamble _ => .error .missingFeature
  | .body comments f => do return ⟨comments, ← f.finish⟩

theorem feedAll_append (d : Draft) (ls ms : List Line) :
    d.feedAll (ls ++ ms) = (do (← d.feedAll ls).feedAll ms) := by
  induction ls generalizing d with
  | nil => rfl
  | cons l ls ih =>
    simp only [List.cons_append, feedAll]
    cases d.feed l with
    | error v => rfl
    | ok d => exact ih d

end Draft

namespace Document

/-- Reads a document from its lines. -/
def ofLines (ls : List Line) : Except Violation Document := do
  (← Draft.empty.feedAll ls).finish

/-- Reads a document from a text. -/
def ofText (text : String) : Except Violation Document :=
  ofLines (Line.ofText text)

end Document

end Gherkin
