import Gherkin.Json
import Gherkin.Outline

/-!
# The listing of scenarios

A scenario entry names a scenario or an outline, the rule around it if there is one, and how many
steps it has. The expanded listing has, in place of an outline, an entry for each row of its
examples: it stands on the line of the row and has the title that the row fills in.
-/

namespace Gherkin

/-- An entry of the listing of scenarios. -/
structure ScenarioEntry where
  file : String
  line : Nat
  keyword : String
  name : String
  rule : Option String
  steps : Nat
  exampleRow : Option Nat
  deriving DecidableEq, Repr

namespace ScenarioEntry

/-- The entry of a scenario, in the rule with the title `rule` if there is one. -/
def ofScenario (file : String) (rule : Option String) (s : Scenario) : ScenarioEntry :=
  ⟨file, s.header.line, (Kind.scenario s.keyword).keyword, s.header.title, rule, s.steps.length,
    none⟩

/-- The entry of an outline. -/
def ofOutline (file : String) (o : Outline) : ScenarioEntry :=
  ⟨file, o.header.line, (Kind.outline o.keyword).keyword, o.header.title, none, o.steps.length,
    none⟩

/-- The entry of an outline that is filled with a row. -/
def ofInstance (file : String) (o : Outline) (i : Instance) : ScenarioEntry :=
  { ofOutline file o with line := i.line, name := i.title, exampleRow := some i.row }

/-- What the entry is called: its rule, its keyword and name, and its row counted from 1, as a
64-bit number. -/
def title (e : ScenarioEntry) : String :=
  (match e.rule with
    | some r => Kind.rule.lead ++ r ++ " / "
    | none => "")
  ++ e.keyword ++ ": " ++ e.name
  ++ (match e.exampleRow with
    | some i => " [example " ++ toString ((i + 1) % UInt64.size) ++ "]"
    | none => "")

/-- The line of the entry in the listing. -/
def written (e : ScenarioEntry) : String :=
  e.file ++ ":" ++ toString e.line ++ ": " ++ e.title ++ " (" ++ toString e.steps ++ " steps)\n"

/-- The entry as a value of JSON; what it does not have is not written. -/
def json (e : ScenarioEntry) : Json :=
  .object ([
    ("feature", .text e.file),
    ("line", .number e.line),
    ("keyword", .text e.keyword),
    ("name", .text e.name)]
  ++ (e.rule.map fun r => ("rule", Json.text r)).toList
  ++ [("steps", .number e.steps)]
  ++ (e.exampleRow.map fun i => ("example_row", Json.number i)).toList)

end ScenarioEntry

namespace Item

/-- The entries of an item. -/
def scenarioEntries (file : String) : Item → List ScenarioEntry
  | .scenario s => [.ofScenario file none s]
  | .rule r => r.scenarios.map (.ofScenario file (some r.header.title))
  | .outline o => [.ofOutline file o]

/-- The entries of an item, with an entry for each row in place of an outline. -/
def expandedEntries (file : String) : Item → Except FillError (List ScenarioEntry)
  | .outline o => (·.map (.ofInstance file o)) <$> o.instances
  | i => .ok (i.scenarioEntries file)

end Item

namespace Feature

/-- The entries of the scenarios and outlines of a feature. -/
def scenarioEntries (f : Feature) (file : String) : List ScenarioEntry :=
  f.items.flatMap (Item.scenarioEntries file)

/-- The entries of a feature, with an entry for each row in place of an outline. -/
def expandedEntries (f : Feature) (file : String) : Except FillError (List ScenarioEntry) :=
  List.flatten <$> f.items.mapM (Item.expandedEntries file)

end Feature

end Gherkin
