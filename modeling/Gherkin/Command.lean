import Gherkin.Batch
import Gherkin.Document.Layout

/-!
# Commands

A command checks feature files, renders one, or lists the steps or the scenarios of some. It
becomes a plan: the actions it takes, and the number of files that fail, or the fault that ends it
before it has written anything. A plan that is carried out ends with the first action that fails.
-/

namespace Gherkin

/-- What the program can be told to do. -/
inductive Command where
  /-- Says of each file whether it can be loaded. -/
  | check (paths : List String)
  /-- Writes a document in the canonical layout. -/
  | render (file : String)
  /-- Lists all steps. -/
  | steps (paths : List String) (json : Bool)
  /-- Lists all scenarios, with `expand` each outline row by row. -/
  | scenarios (paths : List String) (expand json : Bool)
  deriving DecidableEq, Repr

/-- The paths that are given to a command. -/
def Command.paths : Command → List String
  | .check paths | .steps paths _ | .scenarios paths _ _ => paths
  | .render file => [file]

/-- What a command does, and the number of files that fail. -/
structure Plan where
  actions : List Action
  outcome : Except Fault Nat

namespace Plan

/-- The plan of a command that is over with a fault. -/
def ofFault (f : Fault) : Plan :=
  ⟨[], .error f⟩

/-- The plan that takes the actions, flushes, and ends. -/
def ofActions (actions : List Action) (failed : Nat) : Plan :=
  ⟨actions ++ [.flush .output], .ok failed⟩

/-- Checks a batch. -/
def check (batch : List Reading) : List Action :=
  let failed := batch.countP Reading.fails
  batch.flatMap Reading.check
    ++ [.write (checkSummary batch.length failed) .checkSummary,
      .log (.checked batch.length failed)]

/-- Writes entries as JSON. -/
def writeJson (entries : List Json) : List Action :=
  [.write (Json.list entries).pretty .listing, .write "\n" .listingEnd, .flush .listingFlush]

/-- Lists steps. -/
def listSteps (portions : List (Portion StepEntry)) (json : Bool) : List Action :=
  let entries := Portion.entries portions
  Portion.log portions
    ++ if json then writeJson (entries.map StepEntry.json)
      else entries.map fun e => .write e.written (.step e.file e.line)

/-- Lists scenarios. -/
def listScenarios (portions : List (Portion ScenarioEntry)) (json : Bool) : List Action :=
  let entries := Portion.entries portions
  Portion.log portions
    ++ if json then writeJson (entries.map ScenarioEntry.json)
      else entries.map fun e => .write e.written (.scenario e.file e.line)

end Plan

/-- What happens while a batch is found and loaded. -/
def Disk.batchEvents (d : Disk) (batch : List Reading) : List Event :=
  .discovered batch.length :: batch.flatMap fun r => d.loadEvents r.file

namespace Command

/-- The plan of a command on a batch, if it takes the actions and counts the failures that it
makes of the batch. -/
def planBatch (d : Disk) (paths : List String) (f : List Reading → List Action × Nat) : Plan :=
  match d.batch paths with
  | .error e => .ofFault (.search e)
  | .ok batch =>
    let (actions, failed) := f batch
    .ofActions ((d.batchEvents batch).map .log ++ actions) failed

/-- The plan of a command on what is on the disk. -/
def plan (d : Disk) : Command → Plan
  | .check paths => planBatch d paths fun batch => (Plan.check batch, batch.countP Reading.fails)
  | .render file =>
    let loading := (d.loadEvents file).map Action.log
    match d.load file with
    | .ok doc => .ofActions (loading ++ [.write doc.render .rendering]) 0
    | .error e => ⟨loading, .error (.load e)⟩
  | .steps paths json => planBatch d paths fun batch =>
    let portions := batch.map Reading.steps
    (Plan.listSteps portions json, Portion.failed portions)
  | .scenarios paths expand json => planBatch d paths fun batch =>
    let portions := batch.map (Reading.scenarios · expand)
    (Plan.listScenarios portions json, Portion.failed portions)

end Command

namespace Plan

/-- What the plan writes if no action fails. -/
def text (p : Plan) : String :=
  String.join (p.actions.map Action.text)

/-- What happens while the plan is carried out, if no action fails. -/
def events (p : Plan) : List Event :=
  p.actions.flatMap Action.events

/-- Carries the plan out: the number of files that fail, and the sink at the end. -/
def run (p : Plan) (s : Sink) : Except Fault (Nat × Sink) :=
  match s.performAll p.actions with
  | .error e => .error (.output e)
  | .ok s => (·, s) <$> p.outcome

/-- Into a sink that takes everything goes the text of the plan. -/
theorem run_unbounded (p : Plan) :
    p.run .unbounded = (·, ⟨p.text, none, true⟩) <$> p.outcome := by
  simp [run, Sink.unbounded, Sink.performAll_unbounded, text]

end Plan

end Gherkin
