import Gherkin.Draft

/-!
# Milestones

While a document is read, its elements end one after the other: a step when a line comes that it
does not take, a scenario after its last step, and so on outwards. `progress` lists the elements
that end, in that order, up to the end of the input or the first violation.
-/

namespace Gherkin

/-- An element that has been read to its end. -/
inductive Milestone where
  | step (step : Step)
  | background (background : Background)
  | scenario (scenario : Scenario)
  | rule (rule : Rule)
  | outline (outline : Outline)
  | feature (feature : Feature)
  deriving DecidableEq, Repr

/-- The milestone of an element that ends if it may. -/
def Milestone.ofClose (milestone : α → Milestone) : Except Violation α → List Milestone
  | .ok a => [milestone a]
  | .error _ => []

/-- The milestones of an element that ends before a line if it leaves the line. -/
def Verdict.milestones (v : Verdict α) (closed : List Milestone) : List Milestone :=
  if v.isLeaves then closed else []

/-- The elements of a block that end before the line. -/
def BlockDraft.ending (b : BlockDraft) (l : Line) : List Milestone :=
  match b.current with
  | some s => (s.feed l).milestones (Milestone.ofClose .step s.close)
  | none => []

/-- The scenario and its parts, as far as they end before the line. -/
def ScenarioDraft.ending (s : ScenarioDraft) (l : Line) : List Milestone :=
  s.block.ending l ++ (s.feed l).milestones (Milestone.ofClose .scenario s.close)

/-- The outline and its parts, as far as they end before the line. -/
def OutlineDraft.ending (o : OutlineDraft) (l : Line) : List Milestone :=
  o.block.ending l ++ (o.feed l).milestones (Milestone.ofClose .outline o.close)

/-- The rule and its parts, as far as they end before the line. -/
def RuleDraft.ending (r : RuleDraft) (l : Line) : List Milestone :=
  (match r.current with
    | some s => s.ending l
    | none => [])
  ++ (r.feed l).milestones (Milestone.ofClose .rule r.close)

/-- The part and what it holds, as far as they end before the line. -/
def Part.ending (p : Part) (l : Line) : List Milestone :=
  match p with
  | .opening => []
  | .background b =>
    b.ending l
      ++ (b.feed .background l).milestones (Milestone.ofClose .background b.closeBackground)
  | .scenario s => s.ending l
  | .rule r => r.ending l
  | .outline o => o.ending l

namespace Draft

/-- The elements that end before the line. -/
def ending : Draft → Line → List Milestone
  | .preamble _, _ => []
  | .body _ f, l => f.part.ending l

/-- The elements that end with the input. The header of another feature would end the same ones,
as no element below a feature takes such a line. -/
def endingLast (d : Draft) : List Milestone :=
  d.ending ⟨.feature, "", 0, ""⟩ ++ Milestone.ofClose (fun doc => .feature doc.feature) d.finish

/-- The elements that end while the rest of the input is read. -/
def progress : Draft → List Line → List Milestone
  | d, [] => d.endingLast
  | d, l :: ls =>
    d.ending l ++
      (match d.feed l with
        | .ok d => d.progress ls
        | .error _ => [])

end Draft

/-- The elements that end while a document is read, in that order. -/
def Document.progress (ls : List Line) : List Milestone :=
  Draft.empty.progress ls

end Gherkin
