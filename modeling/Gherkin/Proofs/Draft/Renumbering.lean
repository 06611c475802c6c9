import Gherkin.Proofs.Draft.Recasting

/-!
# Numbers of lines

Reading a document never looks at the numbers of its lines, it only keeps them. `renumber f` sends
every number of a line to `f` of it, in lines, documents and violations. It is a way to recast them,
so reading lines under other numbers gives the same document under these numbers, or the same
violation (`Document.ofLines_renumber`).
-/

namespace Gherkin

variable (f : Nat → Nat)

/-! ## Documents under other numbers -/

def Line.renumber (l : Line) : Line :=
  { l with number := f l.number }

def Comment.renumber (c : Comment) : Comment :=
  { c with line := f c.line }

def Description.renumber (d : Description) : Description :=
  { d with line := f d.line }

def Row.renumber (r : Row) : Row :=
  { r with line := f r.line }

def Table.renumber (t : Table) : Table :=
  ⟨t.first.renumber f, t.others.map (·.renumber f), t.comments.map (·.renumber f)⟩

def DocString.renumber (d : DocString) : DocString :=
  { d with line := f d.line }

def Argument.renumber : Argument → Argument
  | .table t => .table (t.renumber f)
  | .docString d => .docString (d.renumber f)

def Step.renumber (s : Step) : Step :=
  { s with
    line := f s.line
    comments := s.comments.map (·.renumber f)
    argument := s.argument.map (·.renumber f) }

def Header.renumber (h : Header) : Header :=
  ⟨f h.line, h.title, h.descriptions.map (·.renumber f), h.comments.map (·.renumber f)⟩

def Background.renumber (b : Background) : Background :=
  ⟨b.header.renumber f, b.steps.map (·.renumber f)⟩

def Scenario.renumber (s : Scenario) : Scenario :=
  ⟨s.keyword, s.header.renumber f, s.steps.map (·.renumber f)⟩

def Examples.renumber (e : Examples) : Examples :=
  ⟨e.keyword, e.header.renumber f, e.table.map (·.renumber f)⟩

def Outline.renumber (o : Outline) : Outline :=
  ⟨o.keyword, o.header.renumber f, o.steps.map (·.renumber f), o.examples.renumber f⟩

def Rule.renumber (r : Rule) : Rule :=
  ⟨r.header.renumber f, r.scenarios.map (·.renumber f)⟩

def Item.renumber : Item → Item
  | .scenario s => .scenario (s.renumber f)
  | .rule r => .rule (r.renumber f)
  | .outline o => .outline (o.renumber f)

def Feature.renumber (g : Feature) : Feature :=
  ⟨g.header.renumber f, g.background.map (·.renumber f), g.items.map (·.renumber f)⟩

def Document.renumber (d : Document) : Document :=
  ⟨d.comments.map (·.renumber f), d.feature.renumber f⟩

def Violation.renumber : Violation → Violation
  | .missingFeature => .missingFeature
  | .expectedFeature n k => .expectedFeature (f n) k
  | .duplicateBackground n m => .duplicateBackground (f n) (f m)
  | .emptyBackground n => .emptyBackground (f n)
  | .duplicateExamples n k o m => .duplicateExamples (f n) k o (f m)
  | .missingExamples n o => .missingExamples (f n) o
  | .duplicateTable n o m => .duplicateTable (f n) o (f m)
  | .duplicateArgument n k m => .duplicateArgument (f n) k (f m)
  | .unterminatedDocString n => .unterminatedDocString (f n)
  | .unexpectedLine n k p => .unexpectedLine (f n) k p
  | .kindMismatch n e k => .kindMismatch (f n) e k

/-- A result under other numbers, by what they do to what was read. -/
def renumbered (g : α → α) : Except Violation α → Except Violation α
  | .ok a => .ok (g a)
  | .error v => .error (v.renumber f)

/-- A change of numbers only. -/
def Recast.renumber : Recast :=
  { number := f }

variable {f}

theorem Recast.casts_renumber (l : Line) : (Recast.renumber f).Casts l (l.renumber f) where
  kind := (kind_eq_self rfl rfl rfl l.kind).symm
  number := rfl
  payload _ := rfl
  free _ := rfl
  margin := rfl
  quoted _ := rfl

theorem Item.recast_renumber (i : Item) : i.recast (Recast.renumber f) = i.renumber f := by
  cases i <;> rfl

theorem Document.recast_renumber (d : Document) :
    d.recast (Recast.renumber f) = d.renumber f := by
  simp only [recast, Feature.recast, Item.recast_renumber]
  rfl

theorem Violation.recast_renumber (v : Violation) :
    v.recast (Recast.renumber f) = v.renumber f := by
  have kind := (Recast.renumber f).kind_eq_self rfl rfl rfl
  cases v <;> simp only [recast, kind] <;> rfl

/-- Lines under other numbers are the same document under these numbers, or break the grammar in
the same way. -/
theorem Document.ofLines_renumber (ls : List Line) :
    Document.ofLines (ls.map (·.renumber f)) =
      renumbered f (·.renumber f) (Document.ofLines ls) := by
  have lines : List.Forall₂ (Recast.renumber f).Casts ls (ls.map (·.renumber f)) := by
    rw [List.forall₂_map_right_iff, List.forall₂_same]
    exact fun l _ => Recast.casts_renumber l
  rw [ofLines_recast lines]
  cases Document.ofLines ls with
  | ok d => exact congrArg Except.ok d.recast_renumber
  | error v => exact congrArg Except.error v.recast_renumber

end Gherkin
