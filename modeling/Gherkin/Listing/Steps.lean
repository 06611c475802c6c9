import Gherkin.Document.Basic
import Gherkin.Json

/-!
# The listing of steps

A step entry says where a step stands, what its keyword means there, and which placeholders it
names. Steps are listed in the order of the document, the background first. A conjunction takes
its meaning from the background, scenario or outline it stands in, and from nothing outside it.
-/

namespace Gherkin

/-- An entry of the listing of steps. -/
structure StepEntry where
  file : String
  line : Nat
  keyword : String
  resolved : String
  text : String
  parameters : List String
  deriving DecidableEq, Repr

namespace StepEntry

/-- The entry of a step that means `resolved`. -/
def ofStep (file : String) (s : Step) (resolved : StepKeyword) : StepEntry :=
  ⟨file, s.line, s.keyword.text, resolved.text, s.text, s.parameters⟩

/-- The keyword as the listing shows it: a conjunction together with its meaning. -/
def keywordColumn (e : StepEntry) : String :=
  if (StepKeyword.ofText? e.keyword).any StepKeyword.isConjunction then
    e.keyword ++ " (" ++ e.resolved ++ ")"
  else e.keyword

/-- The line of the entry in the listing. -/
def written (e : StepEntry) : String :=
  e.file ++ ":" ++ toString e.line ++ ": " ++ e.keywordColumn ++ " " ++ e.text
    ++ (if e.parameters.isEmpty then ""
      else " [" ++ String.intercalate ", " e.parameters ++ "]")
    ++ "\n"

/-- The entry as a value of JSON. -/
def json (e : StepEntry) : Json :=
  .object [
    ("feature", .text e.file),
    ("line", .number e.line),
    ("keyword", .text e.keyword),
    ("resolved_keyword", .text e.resolved),
    ("text", .text e.text),
    ("parameters", .list (e.parameters.map .text))]

end StepEntry

/-- The groups of steps within which conjunctions have their meaning. -/
def Item.stepGroups : Item → List (List Step)
  | .scenario s => [s.steps]
  | .rule r => r.scenarios.map Scenario.steps
  | .outline o => [o.steps]

/-- The entries of steps that stand in one background, scenario or outline. -/
def StepEntry.ofSteps (file : String) (steps : List Step) : List StepEntry :=
  List.zipWith (ofStep file) steps (StepKeyword.resolveFrom none (steps.map Step.keyword))

/-- The entries of all steps of a feature. -/
def Feature.stepEntries (f : Feature) (file : String) : List StepEntry :=
  (f.backgroundSteps :: f.items.flatMap Item.stepGroups).flatMap (StepEntry.ofSteps file)

end Gherkin
