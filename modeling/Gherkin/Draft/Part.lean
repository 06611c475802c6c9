import Gherkin.Draft.Block

/-!
# Reading the parts of a feature

A part is what stands below the header of a feature: the background, a scenario, a rule with its
scenarios, or an outline. An outline is a block of steps and then one block of examples, which
holds one table; the table goes on while rows and comments follow each other.
-/

namespace Gherkin

/-- The table of a block of examples. -/
inductive TableDraft where
  /-- No row has been read. -/
  | awaited
  /-- Rows and comments go into the table. -/
  | growing (table : Table)
  /-- The table has ended. -/
  | ended (table : Table)
  deriving DecidableEq, Repr

/-- The table read so far. -/
def TableDraft.table? : TableDraft → Option Table
  | .awaited => none
  | .growing t | .ended t => some t

/-- The table once a line that is neither a row nor a comment is read. -/
def TableDraft.settle : TableDraft → TableDraft
  | .growing t => .ended t
  | t => t

/-- A block of examples that may still take lines. -/
structure ExamplesDraft where
  keyword : ExamplesKeyword
  header : Header
  table : TableDraft
  deriving DecidableEq, Repr

namespace ExamplesDraft

/-- The kind of the block's header. -/
def kind (e : ExamplesDraft) : Kind :=
  .examples e.keyword

/-- The block that a header line begins. -/
def start (keyword : ExamplesKeyword) (l : Line) : ExamplesDraft :=
  ⟨keyword, l.header, .awaited⟩

/-- The block looks at a line. A comment right after a row goes with the table. -/
def feed (e : ExamplesDraft) (l : Line) : Verdict ExamplesDraft :=
  match l.kind, e.table with
  | .description, t =>
    .takes { e with header := e.header.addDescription l.description, table := t.settle }
  | .comment, .growing t => .takes { e with table := .growing (t.addComment l.comment) }
  | .comment, _ => .takes { e with header := e.header.addComment l.comment }
  | .row, .awaited => .takes { e with table := .growing (.start l) }
  | .row, .growing t => .takes { e with table := .growing (t.addRow l.row) }
  | .row, .ended _ => .rejects (.duplicateTable l.number e.kind e.header.line)
  | k, _ => if e.kind.endedBy k then .leaves else .rejects (l.unexpected e.kind)

/-- The block of examples. -/
def close (e : ExamplesDraft) : Examples :=
  ⟨e.keyword, e.header, e.table.table?⟩

end ExamplesDraft

/-- An outline that may still take lines. -/
structure OutlineDraft where
  keyword : OutlineKeyword
  block : BlockDraft
  examples : Option ExamplesDraft
  deriving DecidableEq, Repr

namespace OutlineDraft

/-- The kind of the outline's header. -/
def kind (o : OutlineDraft) : Kind :=
  .outline o.keyword

/-- The outline that a header line begins. -/
def start (keyword : OutlineKeyword) (l : Line) : OutlineDraft :=
  ⟨keyword, .start l, none⟩

/-- The outline looks at a line that neither its steps nor its examples take. -/
def accept (o : OutlineDraft) (l : Line) : Verdict OutlineDraft :=
  match l.kind, o.examples with
  | .examples k, none => .takes { o with block := o.block.settle, examples := some (.start k l) }
  | .examples _, some _ =>
    .rejects (.duplicateExamples l.number l.kind o.kind o.block.header.line)
  | _, _ => .leaves

/-- The outline looks at a line. -/
def feed (o : OutlineDraft) (l : Line) : Verdict OutlineDraft :=
  match o.examples with
  | none =>
    match o.block.feed o.kind l with
    | .takes b => .takes { o with block := b }
    | .leaves => o.accept l
    | .rejects v => .rejects v
  | some e =>
    match e.feed l with
    | .takes e => .takes { o with examples := some e }
    | .leaves => o.accept l
    | .rejects v => .rejects v

/-- The outline, if it may end here: it needs a block of examples. -/
def close (o : OutlineDraft) : Except Violation Outline := do
  let steps ← o.block.close
  match o.examples with
  | some e => return ⟨o.keyword, o.block.header, steps, e.close⟩
  | none => throw (.missingExamples o.block.header.line o.kind)

end OutlineDraft

/-- A rule that may still take lines: its header, the scenarios that have ended, and the scenario
that is being read, if there is one. -/
structure RuleDraft where
  header : Header
  scenarios : List Scenario
  current : Option ScenarioDraft
  deriving DecidableEq, Repr

namespace RuleDraft

/-- The rule that a header line begins. -/
def start (l : Line) : RuleDraft :=
  ⟨l.header, [], none⟩

/-- The scenarios of the rule, if it may end here. -/
def closeScenarios (r : RuleDraft) : Except Violation (List Scenario) :=
  match r.current with
  | none => .ok r.scenarios
  | some s => do return r.scenarios ++ [← s.close]

/-- The rule, if it may end here. -/
def close (r : RuleDraft) : Except Violation Rule := do
  return ⟨r.header, ← r.closeScenarios⟩

/-- The rule after its current scenario has ended. -/
def settle (r : RuleDraft) : RuleDraft :=
  match r.closeScenarios with
  | .ok scenarios => { r with scenarios, current := none }
  | .error _ => r

/-- The rule looks at a line that no scenario takes. -/
def accept (r : RuleDraft) (l : Line) : Verdict RuleDraft :=
  match l.kind with
  | .description => .takes { r with header := r.header.addDescription l.description }
  | .comment => .takes { r with header := r.header.addComment l.comment }
  | .scenario k => .takes { r with current := some (.start k l) }
  | k => if Kind.rule.endedBy k then .leaves else .rejects (l.unexpected .rule)

/-- The rule looks at a line. -/
def feed (r : RuleDraft) (l : Line) : Verdict RuleDraft :=
  match r.current with
  | none => r.accept l
  | some s =>
    match s.feed l with
    | .takes s => .takes { r with current := some s }
    | .leaves => r.settle.accept l
    | .rejects v => .rejects v

end RuleDraft

/-- The part of a feature that is being read. -/
inductive Part where
  /-- The lines right below the header of the feature. -/
  | opening
  | background (block : BlockDraft)
  | scenario (scenario : ScenarioDraft)
  | rule (rule : RuleDraft)
  | outline (outline : OutlineDraft)
  deriving DecidableEq, Repr

/-- The part looks at a line. -/
def Part.feed (p : Part) (l : Line) : Verdict Part :=
  match p with
  | .opening => .leaves
  | .background b => (b.feed .background l).map .background
  | .scenario s => (s.feed l).map .scenario
  | .rule r => (r.feed l).map .rule
  | .outline o => (o.feed l).map .outline

end Gherkin
