import Gherkin.Draft.Step

/-!
# Reading a block of steps

A background, a scenario and the first part of an outline are blocks: descriptions, comments and
steps in any order. Lines that a step does not take go to the block; a header that ends the block
is left to the elements around it; all else breaks the grammar.
-/

namespace Gherkin

/-- A block that may still take lines: its header, the steps that have ended, and the step that is
being read, if there is one. -/
structure BlockDraft where
  header : Header
  steps : List Step
  current : Option StepDraft
  deriving DecidableEq, Repr

namespace BlockDraft

/-- The block that a header line begins. -/
def start (l : Line) : BlockDraft :=
  ⟨l.header, [], none⟩

/-- The steps of the block, if it may end here. -/
def close (b : BlockDraft) : Except Violation (List Step) :=
  match b.current with
  | none => .ok b.steps
  | some s => do return b.steps ++ [← s.close]

/-- The block after its current step has ended. -/
def settle (b : BlockDraft) : BlockDraft :=
  match b.current with
  | some (.plain s) => { b with steps := b.steps ++ [s], current := none }
  | _ => b

/-- The block, opened by a line of kind `own`, looks at a line that no step takes. -/
def accept (own : Kind) (b : BlockDraft) (l : Line) : Verdict BlockDraft :=
  match l.kind with
  | .description => .takes { b with header := b.header.addDescription l.description }
  | .comment => .takes { b with header := b.header.addComment l.comment }
  | .step k =>
    if own.holds k then .takes { b with current := some (.start k l) }
    else .rejects (l.unexpected own)
  | k => if own.endedBy k then .leaves else .rejects (l.unexpected own)

/-- The block, opened by a line of kind `own`, looks at a line. -/
def feed (own : Kind) (b : BlockDraft) (l : Line) : Verdict BlockDraft :=
  match b.current with
  | none => b.accept own l
  | some s =>
    match s.feed l with
    | .takes s => .takes { b with current := some s }
    | .leaves => b.settle.accept own l
    | .rejects v => .rejects v

end BlockDraft

/-- A scenario that may still take lines. -/
structure ScenarioDraft where
  keyword : ScenarioKeyword
  block : BlockDraft
  deriving DecidableEq, Repr

namespace ScenarioDraft

/-- The scenario that a header line begins. -/
def start (keyword : ScenarioKeyword) (l : Line) : ScenarioDraft :=
  ⟨keyword, .start l⟩

/-- The scenario looks at a line. -/
def feed (s : ScenarioDraft) (l : Line) : Verdict ScenarioDraft :=
  (s.block.feed (.scenario s.keyword) l).map fun b => { s with block := b }

/-- The scenario, if it may end here. -/
def close (s : ScenarioDraft) : Except Violation Scenario := do
  return ⟨s.keyword, s.block.header, ← s.block.close⟩

end ScenarioDraft

/-- The background of a block, if it may end here: it needs a step. -/
def BlockDraft.closeBackground (b : BlockDraft) : Except Violation Background := do
  let steps ← b.close
  if steps.isEmpty then throw (.emptyBackground b.header.line)
  return ⟨b.header, steps⟩

end Gherkin
