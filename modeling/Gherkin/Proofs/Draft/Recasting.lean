import Gherkin.Draft
import Mathlib.Data.List.Forall2

/-!
# Lines that are read alike

Reading a document keeps the numbers of its lines and the words and marks that have two spellings,
but it does not go by them; nor does it go by the margins of descriptions, and in a DocString it
goes only by what a line has more of a margin than the opening fence. `Recast` is a change of all
this, carried through kinds, documents, drafts and violations. Each step of the reading commutes
with it, so lines that are recast are the document recast, or break the grammar in the same way
(`Document.ofLines_recast`).
-/

namespace Gherkin

/-- A change of what reading keeps and does not go by. What is not given stays as it is. -/
structure Recast where
  /-- The number of a line under its other number. -/
  number : Nat → Nat := id
  /-- The spelling of an outline. -/
  outline : OutlineKeyword → OutlineKeyword := id
  /-- The spelling of a block of examples. -/
  examples : ExamplesKeyword → ExamplesKeyword := id
  /-- The form of a fence. -/
  fence : Fence → Fence := id
  /-- The line of a description. -/
  free : String → String := id
  /-- The margin of a fence. -/
  margin : Nat → Nat := id

variable (r : Recast)

/-- The kind of a line in its other spelling. -/
def Recast.kind : Kind → Kind
  | .outline k => .outline (r.outline k)
  | .examples k => .examples (r.examples k)
  | .fence f => .fence (r.fence f)
  | k => k

/-- The second line is the first one recast. The payload of a description is not read, and what
a line says in a DocString is what it has beyond a margin. -/
structure Recast.Casts (l m : Line) : Prop where
  kind : m.kind = r.kind l.kind
  number : m.number = r.number l.number
  payload : l.kind ≠ .description → m.payload = l.payload
  free : l.kind = .description → m.raw = r.free l.raw
  margin : m.margin = r.margin l.margin
  quoted : ∀ width,
    Text.dropMargin (r.margin width) m.raw.toList = Text.dropMargin width l.raw.toList

/-! ## Documents that are recast -/

def Comment.recast (c : Comment) : Comment :=
  { c with line := r.number c.line }

def Description.recast (d : Description) : Description :=
  ⟨r.number d.line, r.free d.raw⟩

def Row.recast (w : Row) : Row :=
  { w with line := r.number w.line }

def Table.recast (t : Table) : Table :=
  ⟨t.first.recast r, t.others.map (·.recast r), t.comments.map (·.recast r)⟩

def DocString.recast (d : DocString) : DocString :=
  { d with
    line := r.number d.line
    opening := r.fence d.opening
    closing := r.fence d.closing }

def Argument.recast : Argument → Argument
  | .table t => .table (t.recast r)
  | .docString d => .docString (d.recast r)

def Step.recast (s : Step) : Step :=
  { s with
    line := r.number s.line
    comments := s.comments.map (·.recast r)
    argument := s.argument.map (·.recast r) }

def Header.recast (h : Header) : Header :=
  ⟨r.number h.line, h.title, h.descriptions.map (·.recast r), h.comments.map (·.recast r)⟩

def Background.recast (b : Background) : Background :=
  ⟨b.header.recast r, b.steps.map (·.recast r)⟩

def Scenario.recast (s : Scenario) : Scenario :=
  ⟨s.keyword, s.header.recast r, s.steps.map (·.recast r)⟩

def Examples.recast (e : Examples) : Examples :=
  ⟨r.examples e.keyword, e.header.recast r, e.table.map (·.recast r)⟩

def Outline.recast (o : Outline) : Outline :=
  ⟨r.outline o.keyword, o.header.recast r, o.steps.map (·.recast r), o.examples.recast r⟩

def Rule.recast (g : Rule) : Rule :=
  ⟨g.header.recast r, g.scenarios.map (·.recast r)⟩

def Item.recast : Item → Item
  | .scenario s => .scenario (s.recast r)
  | .rule g => .rule (g.recast r)
  | .outline o => .outline (o.recast r)

def Feature.recast (f : Feature) : Feature :=
  ⟨f.header.recast r, f.background.map (·.recast r), f.items.map (·.recast r)⟩

def Document.recast (d : Document) : Document :=
  ⟨d.comments.map (·.recast r), d.feature.recast r⟩

def Violation.recast : Violation → Violation
  | .missingFeature => .missingFeature
  | .expectedFeature n k => .expectedFeature (r.number n) (r.kind k)
  | .duplicateBackground n m => .duplicateBackground (r.number n) (r.number m)
  | .emptyBackground n => .emptyBackground (r.number n)
  | .duplicateExamples n k o m =>
    .duplicateExamples (r.number n) (r.kind k) (r.kind o) (r.number m)
  | .missingExamples n o => .missingExamples (r.number n) (r.kind o)
  | .duplicateTable n o m => .duplicateTable (r.number n) (r.kind o) (r.number m)
  | .duplicateArgument n k m => .duplicateArgument (r.number n) (r.kind k) (r.number m)
  | .unterminatedDocString n => .unterminatedDocString (r.number n)
  | .unexpectedLine n k p => .unexpectedLine (r.number n) (r.kind k) (r.kind p)
  | .kindMismatch n e k => .kindMismatch (r.number n) e (r.kind k)

/-! ## Drafts that are recast -/

def DocDraft.recast (d : DocDraft) : DocDraft :=
  { d with
    line := r.number d.line
    margin := r.margin d.margin
    opening := r.fence d.opening }

def StepDraft.recast : StepDraft → StepDraft
  | .plain s => .plain (s.recast r)
  | .quoting s d => .quoting (s.recast r) (d.recast r)

def BlockDraft.recast (b : BlockDraft) : BlockDraft :=
  ⟨b.header.recast r, b.steps.map (·.recast r), b.current.map (·.recast r)⟩

def ScenarioDraft.recast (s : ScenarioDraft) : ScenarioDraft :=
  { s with block := s.block.recast r }

def TableDraft.recast : TableDraft → TableDraft
  | .awaited => .awaited
  | .growing t => .growing (t.recast r)
  | .ended t => .ended (t.recast r)

def ExamplesDraft.recast (e : ExamplesDraft) : ExamplesDraft :=
  ⟨r.examples e.keyword, e.header.recast r, e.table.recast r⟩

def OutlineDraft.recast (o : OutlineDraft) : OutlineDraft :=
  ⟨r.outline o.keyword, o.block.recast r, o.examples.map (·.recast r)⟩

def RuleDraft.recast (g : RuleDraft) : RuleDraft :=
  ⟨g.header.recast r, g.scenarios.map (·.recast r), g.current.map (·.recast r)⟩

def Part.recast : Part → Part
  | .opening => .opening
  | .background b => .background (b.recast r)
  | .scenario s => .scenario (s.recast r)
  | .rule g => .rule (g.recast r)
  | .outline o => .outline (o.recast r)

def FeatureDraft.recast (f : FeatureDraft) : FeatureDraft :=
  ⟨f.header.recast r, f.background.map (·.recast r), f.items.map (·.recast r), f.part.recast r⟩

def Draft.recast : Draft → Draft
  | .preamble comments => .preamble (comments.map (·.recast r))
  | .body comments f => .body (comments.map (·.recast r)) (f.recast r)

/-- A verdict that is recast, by what becomes of the element. -/
def Verdict.recast (g : α → β) : Verdict α → Verdict β
  | .takes a => .takes (g a)
  | .leaves => .leaves
  | .rejects v => .rejects (v.recast r)

/-- A result that is recast, by what becomes of what was read. -/
def recasted (g : α → β) : Except Violation α → Except Violation β
  | .ok a => .ok (g a)
  | .error v => .error (v.recast r)

variable {r} {l m : Line}

/-! ## Kinds and lines -/

namespace Recast

@[simp] theorem endedBy_kind (own k : Kind) :
    (r.kind own).endedBy (r.kind k) = own.endedBy k := by
  cases k <;> cases own <;> rfl

@[simp] theorem holds_kind (own : Kind) (k : StepKeyword) : (r.kind own).holds k = own.holds k := by
  cases own <;> cases k <;> rfl

/-- A change that leaves each spelling leaves each kind. -/
theorem kind_eq_self (outline : r.outline = id) (examples : r.examples = id)
    (fence : r.fence = id) (k : Kind) : r.kind k = k := by
  cases k <;> simp [kind, outline, examples, fence]

namespace Casts

theorem comment (h : r.Casts l m) (kind : l.kind = .comment) :
    m.comment = l.comment.recast r := by
  simp [Line.comment, Comment.recast, h.number, h.payload, kind]

theorem description (h : r.Casts l m) (kind : l.kind = .description) :
    m.description = l.description.recast r := by
  simp [Line.description, Description.recast, h.number, h.free kind]

theorem row (h : r.Casts l m) (kind : l.kind = .row) : m.row = l.row.recast r := by
  simp [Line.row, Row.recast, h.number, h.payload, kind]

theorem header (h : r.Casts l m) (kind : l.kind.category = .container) :
    m.header = l.header.recast r := by
  have payload : m.payload = l.payload := by
    apply h.payload
    intro free
    simp [free, Kind.category] at kind
  simp [Line.header, Header.start, Header.recast, h.number, payload]

theorem unexpected (h : r.Casts l m) (parent : Kind) :
    m.unexpected (r.kind parent) = (l.unexpected parent).recast r := by
  simp [Line.unexpected, Violation.recast, h.number, h.kind]

theorem table (h : r.Casts l m) (kind : l.kind = .row) :
    Table.start m = (Table.start l).recast r := by
  simp [Table.start, Table.recast, h.row kind]

theorem step (h : r.Casts l m) {k : StepKeyword} (kind : l.kind = .step k) :
    StepDraft.start k m = (StepDraft.start k l).recast r := by
  simp [StepDraft.start, StepDraft.recast, Step.recast, h.number, h.payload, kind]

theorem doc (h : r.Casts l m) {f : Fence} (kind : l.kind = .fence f) :
    DocDraft.start (r.fence f) m = (DocDraft.start f l).recast r := by
  simp [DocDraft.start, DocDraft.recast, h.number, h.margin, h.payload, kind]

theorem add (h : r.Casts l m) (d : DocDraft) : (d.recast r).add m = (d.add l).recast r := by
  simp [DocDraft.add, DocDraft.recast, h.quoted]

end Casts

end Recast

@[simp] theorem Header.recast_line (h : Header) : (h.recast r).line = r.number h.line := rfl

@[simp] theorem Header.recast_addComment (h : Header) (c : Comment) :
    (h.addComment c).recast r = (h.recast r).addComment (c.recast r) := by
  simp [addComment, recast]

@[simp] theorem Header.recast_addDescription (h : Header) (d : Description) :
    (h.addDescription d).recast r = (h.recast r).addDescription (d.recast r) := by
  simp [addDescription, recast]

@[simp] theorem Table.recast_addComment (t : Table) (c : Comment) :
    (t.addComment c).recast r = (t.recast r).addComment (c.recast r) := by
  simp [addComment, recast]

@[simp] theorem Table.recast_addRow (t : Table) (w : Row) :
    (t.addRow w).recast r = (t.recast r).addRow (w.recast r) := by
  simp [addRow, recast]

@[simp] theorem DocDraft.recast_close (d : DocDraft) (f : Fence) :
    (d.recast r).close (r.fence f) = (d.close f).recast r := rfl

/-! ## Steps and blocks -/

namespace StepDraft

theorem feedPlain_recast (h : r.Casts l m) (s : Step) :
    feedPlain (s.recast r) m = (feedPlain s l).recast r (·.recast r) := by
  rcases s with ⟨keyword, line, text, comments, _ | t | d⟩ <;> cases hk : l.kind <;>
    simp [feedPlain, h.kind, hk, Recast.kind, Step.recast, Step.addComment, Argument.recast,
      Verdict.recast, StepDraft.recast, Violation.recast, h.number, h.comment, h.row, h.table,
      h.doc]

theorem feed_recast (h : r.Casts l m) (s : StepDraft) :
    (s.recast r).feed m = (s.feed l).recast r (·.recast r) := by
  cases s with
  | plain s => exact feedPlain_recast h s
  | quoting s d =>
    cases hk : l.kind <;>
      simp [feed, StepDraft.recast, feedQuoting, h.kind, hk, Recast.kind, Verdict.recast, h.add,
        Step.recast, Argument.recast]

theorem close_recast (s : StepDraft) : (s.recast r).close = recasted r (·.recast r) s.close := by
  cases s <;> rfl

end StepDraft

namespace BlockDraft

theorem start_recast (h : r.Casts l m) (kind : l.kind.category = .container) :
    start m = (start l).recast r := by
  simp [start, recast, h.header kind]

theorem settle_recast (b : BlockDraft) : (b.recast r).settle = b.settle.recast r := by
  rcases hb : b.current with _ | s | ⟨s, d⟩ <;> simp [settle, recast, hb, StepDraft.recast]

theorem accept_recast (h : r.Casts l m) (own : Kind) (b : BlockDraft) :
    (b.recast r).accept (r.kind own) m = (b.accept own l).recast r (·.recast r) := by
  have kind := h.kind
  have ended := Recast.endedBy_kind (r := r) own l.kind
  rw [← kind] at ended
  cases hk : l.kind <;> simp only [hk, Recast.kind] at kind <;> simp only [hk, kind] at ended <;>
    simp only [accept, hk, kind, ended, Recast.holds_kind] <;> try split
  all_goals simp [Verdict.recast, recast, h.description, h.comment, h.step, h.unexpected, hk]

theorem feed_recast (h : r.Casts l m) (own : Kind) (b : BlockDraft) :
    (b.recast r).feed (r.kind own) m = (b.feed own l).recast r (·.recast r) := by
  cases hb : b.current with
  | none =>
    simp only [feed, recast, hb, Option.map_none]
    simpa only [recast, hb, Option.map_none] using accept_recast h own b
  | some s =>
    have settled := settle_recast (r := r) b
    simp only [recast, hb, Option.map_some] at settled
    simp only [feed, recast, hb, Option.map_some, StepDraft.feed_recast h]
    cases s.feed l with
    | takes s => rfl
    | rejects v => rfl
    | leaves =>
      simp only [Verdict.recast, settled]
      exact accept_recast h own b.settle

theorem close_recast (b : BlockDraft) :
    (b.recast r).close = recasted r (·.map (·.recast r)) b.close := by
  cases hb : b.current with
  | none => simp [close, recast, hb, recasted]
  | some s =>
    simp only [close, recast, hb, Option.map_some, StepDraft.close_recast]
    cases s.close <;> simp [recasted, bind, Except.bind, pure, Except.pure]

theorem closeBackground_recast (b : BlockDraft) :
    (b.recast r).closeBackground = recasted r (·.recast r) b.closeBackground := by
  simp only [closeBackground, close_recast]
  cases b.close with
  | error v => rfl
  | ok steps => cases steps <;> rfl

end BlockDraft

namespace ScenarioDraft

theorem start_recast (h : r.Casts l m) {k : ScenarioKeyword} (kind : l.kind = .scenario k) :
    start k m = (start k l).recast r := by
  simp [start, recast, BlockDraft.start_recast h (by simp [kind, Kind.category])]

theorem feed_recast (h : r.Casts l m) (s : ScenarioDraft) :
    (s.recast r).feed m = (s.feed l).recast r (·.recast r) := by
  have block := BlockDraft.feed_recast h (.scenario s.keyword) s.block
  simp only [Recast.kind] at block
  simp only [feed, recast, block]
  cases s.block.feed (.scenario s.keyword) l <;> rfl

theorem close_recast (s : ScenarioDraft) :
    (s.recast r).close = recasted r (·.recast r) s.close := by
  simp only [close, recast, BlockDraft.close_recast]
  cases s.block.close <;> rfl

end ScenarioDraft

/-! ## Parts -/

namespace ExamplesDraft

theorem start_recast (h : r.Casts l m) {k : ExamplesKeyword} (kind : l.kind = .examples k) :
    start (r.examples k) m = (start k l).recast r := by
  simp [start, recast, TableDraft.recast, h.header (by simp [kind, Kind.category])]

theorem feed_recast (h : r.Casts l m) (e : ExamplesDraft) :
    (e.recast r).feed m = (e.feed l).recast r (·.recast r) := by
  have unexpected := h.unexpected (.examples e.keyword)
  simp only [Recast.kind] at unexpected
  rcases e with ⟨keyword, header, _ | t | t⟩ <;> cases hk : l.kind <;>
    simp [feed, h.kind, hk, Recast.kind, recast, kind, Kind.endedBy, Verdict.recast,
      TableDraft.recast, TableDraft.settle, Violation.recast, h.number, h.description, h.comment,
      h.row, h.table, unexpected]

theorem close_recast (e : ExamplesDraft) : (e.recast r).close = e.close.recast r := by
  rcases e with ⟨keyword, header, _ | t | t⟩ <;> rfl

end ExamplesDraft

namespace OutlineDraft

theorem start_recast (h : r.Casts l m) {k : OutlineKeyword} (kind : l.kind = .outline k) :
    start (r.outline k) m = (start k l).recast r := by
  simp [start, recast, BlockDraft.start_recast h (by simp [kind, Kind.category])]

theorem accept_recast (h : r.Casts l m) (o : OutlineDraft) :
    (o.recast r).accept m = (o.accept l).recast r (·.recast r) := by
  rcases ho : o.examples with _ | e <;> cases hk : l.kind <;>
    simp [accept, h.kind, hk, Recast.kind, ho, recast, Verdict.recast, BlockDraft.settle_recast,
      ExamplesDraft.start_recast h, Violation.recast, kind, h.number]
  rfl

theorem feed_recast (h : r.Casts l m) (o : OutlineDraft) :
    (o.recast r).feed m = (o.feed l).recast r (·.recast r) := by
  have accepted := accept_recast h o
  have block := BlockDraft.feed_recast h (.outline o.keyword) o.block
  simp only [Recast.kind] at block
  rcases ho : o.examples with _ | e
  · simp only [feed, recast, ho, Option.map_none, kind, block]
    simp only [recast, ho, Option.map_none] at accepted
    cases o.block.feed (.outline o.keyword) l with
    | takes b => simp [Verdict.recast]
    | rejects v => rfl
    | leaves => exact accepted
  · simp only [feed, recast, ho, Option.map_some, ExamplesDraft.feed_recast h]
    simp only [recast, ho, Option.map_some] at accepted
    cases e.feed l with
    | takes e => simp [Verdict.recast]
    | rejects v => rfl
    | leaves => exact accepted

theorem close_recast (o : OutlineDraft) :
    (o.recast r).close = recasted r (·.recast r) o.close := by
  simp only [close, recast, BlockDraft.close_recast]
  cases o.block.close with
  | error v => rfl
  | ok steps =>
    rcases o.examples with _ | e
    · rfl
    · simp [recasted, bind, Except.bind, pure, Except.pure, ExamplesDraft.close_recast,
        Outline.recast, BlockDraft.recast]

end OutlineDraft

namespace RuleDraft

theorem closeScenarios_recast (g : RuleDraft) :
    (g.recast r).closeScenarios = recasted r (·.map (·.recast r)) g.closeScenarios := by
  rcases hg : g.current with _ | s
  · simp [closeScenarios, recast, hg, recasted]
  · simp only [closeScenarios, recast, hg, Option.map_some, ScenarioDraft.close_recast]
    cases s.close <;> simp [recasted, bind, Except.bind, pure, Except.pure]

theorem close_recast (g : RuleDraft) :
    (g.recast r).close = recasted r (·.recast r) g.close := by
  simp only [close, closeScenarios_recast]
  cases g.closeScenarios <;> rfl

theorem settle_recast (g : RuleDraft) : (g.recast r).settle = g.settle.recast r := by
  simp only [settle, closeScenarios_recast]
  cases g.closeScenarios <;> rfl

theorem start_recast (h : r.Casts l m) (kind : l.kind = .rule) :
    start m = (start l).recast r := by
  simp [start, recast, h.header (by simp [kind, Kind.category])]

theorem accept_recast (h : r.Casts l m) (g : RuleDraft) :
    (g.recast r).accept m = (g.accept l).recast r (·.recast r) := by
  have unexpected := h.unexpected .rule
  simp only [Recast.kind] at unexpected
  cases hk : l.kind <;>
    simp [accept, h.kind, hk, Recast.kind, recast, Kind.endedBy, Verdict.recast, h.description,
      h.comment, ScenarioDraft.start_recast h, unexpected]

theorem feed_recast (h : r.Casts l m) (g : RuleDraft) :
    (g.recast r).feed m = (g.feed l).recast r (·.recast r) := by
  rcases hg : g.current with _ | s
  · have accepted := accept_recast h g
    simp only [recast, hg, Option.map_none] at accepted
    simp only [feed, recast, hg, Option.map_none]
    exact accepted
  · have settled := settle_recast (r := r) g
    simp only [recast, hg, Option.map_some] at settled
    simp only [feed, recast, hg, Option.map_some, ScenarioDraft.feed_recast h]
    cases s.feed l with
    | takes s => rfl
    | rejects v => rfl
    | leaves =>
      simp only [Verdict.recast]
      rw [settled]
      exact accept_recast h g.settle

end RuleDraft

theorem Part.feed_recast (h : r.Casts l m) (p : Part) :
    (p.recast r).feed m = (p.feed l).recast r (·.recast r) := by
  cases p with
  | opening => rfl
  | background b =>
    have block := BlockDraft.feed_recast h .background b
    simp only [Recast.kind] at block
    simp only [feed, recast, block]
    cases b.feed .background l <;> rfl
  | scenario s =>
    simp only [feed, recast, ScenarioDraft.feed_recast h]
    cases s.feed l <;> rfl
  | rule g =>
    simp only [feed, recast, RuleDraft.feed_recast h]
    cases g.feed l <;> rfl
  | outline o =>
    simp only [feed, recast, OutlineDraft.feed_recast h]
    cases o.feed l <;> rfl

/-! ## Features and documents -/

namespace FeatureDraft

theorem settle_recast (f : FeatureDraft) :
    (f.recast r).settle = recasted r (·.recast r) f.settle := by
  cases hp : f.part with
  | opening => simp [settle, recast, hp, Part.recast, recasted]
  | background b =>
    simp only [settle, recast, hp, Part.recast, BlockDraft.closeBackground_recast]
    cases b.closeBackground <;> rfl
  | scenario s =>
    simp only [settle, recast, hp, Part.recast, ScenarioDraft.close_recast]
    cases s.close <;>
      simp [recasted, addItem, bind, Except.bind, pure, Except.pure, Item.recast]
  | rule g =>
    simp only [settle, recast, hp, Part.recast, RuleDraft.close_recast]
    cases g.close <;>
      simp [recasted, addItem, bind, Except.bind, pure, Except.pure, Item.recast]
  | outline o =>
    simp only [settle, recast, hp, Part.recast, OutlineDraft.close_recast]
    cases o.close <;>
      simp [recasted, addItem, bind, Except.bind, pure, Except.pure, Item.recast]

theorem accept_recast (h : r.Casts l m) (f : FeatureDraft) :
    (f.recast r).accept m = recasted r (·.recast r) (f.accept l) := by
  have unexpected := h.unexpected .feature
  simp only [Recast.kind] at unexpected
  have block := BlockDraft.start_recast h
  cases hk : l.kind <;> simp only [accept, h.kind, hk, Recast.kind]
  case background =>
    rcases hb : f.background with _ | b <;>
      simp [recast, hb, recasted, Part.recast, block, hk, Kind.category, Violation.recast,
        h.number, Background.recast, Header.recast]
  case scenario k =>
    cases k <;> simp [recast, recasted, Part.recast, ScenarioDraft.start_recast h, hk, unexpected]
  all_goals
    simp [recast, recasted, Part.recast, RuleDraft.start_recast h, OutlineDraft.start_recast h, hk,
      h.description, h.comment, unexpected]

theorem feed_recast (h : r.Casts l m) (f : FeatureDraft) :
    (f.recast r).feed m = recasted r (·.recast r) (f.feed l) := by
  have same : (f.recast r).part = f.part.recast r := rfl
  simp only [feed, same, Part.feed_recast h, settle_recast]
  cases f.part.feed l with
  | takes p => rfl
  | rejects v => rfl
  | leaves =>
    cases f.settle with
    | error v => rfl
    | ok g => exact accept_recast h g

theorem finish_recast (f : FeatureDraft) :
    (f.recast r).finish = recasted r (·.recast r) f.finish := by
  simp only [finish, settle_recast]
  cases f.settle <;> rfl

end FeatureDraft

namespace Draft

theorem feed_recast (h : r.Casts l m) (d : Draft) :
    (d.recast r).feed m = recasted r (·.recast r) (d.feed l) := by
  cases d with
  | preamble comments =>
    cases hk : l.kind <;>
      simp [feed, h.kind, hk, Recast.kind, recast, recasted, FeatureDraft.start,
        FeatureDraft.recast, Part.recast, Violation.recast, h.number, h.comment, h.header,
        Kind.category]
  | body comments f =>
    simp only [feed, recast, FeatureDraft.feed_recast h]
    cases f.feed l <;> rfl

theorem feedAll_recast {ls ms : List Line} (h : List.Forall₂ r.Casts ls ms) (d : Draft) :
    (d.recast r).feedAll ms = recasted r (·.recast r) (d.feedAll ls) := by
  induction h generalizing d with
  | nil => rfl
  | @cons l m ls ms first rest ih =>
    simp only [feedAll, feed_recast first]
    cases d.feed l with
    | error v => rfl
    | ok e => exact ih e

theorem finish_recast (d : Draft) :
    (d.recast r).finish = recasted r (·.recast r) d.finish := by
  cases d with
  | preamble comments => rfl
  | body comments f =>
    simp only [finish, recast, FeatureDraft.finish_recast]
    cases f.finish <;> rfl

end Draft

/-- Lines that are recast are the document recast, or break the grammar in the same way. -/
theorem Document.ofLines_recast {ls ms : List Line} (h : List.Forall₂ r.Casts ls ms) :
    Document.ofLines ms = recasted r (·.recast r) (Document.ofLines ls) := by
  have start : Draft.empty.recast r = Draft.empty := rfl
  simp only [ofLines]
  rw [← start, Draft.feedAll_recast h, start]
  cases Draft.empty.feedAll ls with
  | error v => rfl
  | ok d => exact Draft.finish_recast d

end Gherkin
