import Gherkin.Fault
import Gherkin.Listing.Scenarios
import Gherkin.Listing.Steps

/-!
# Batches

A batch is the feature files that the paths of a command stand for, in path order, each loaded on
its own: a file that cannot be loaded is reported and does not stop the others. What the commands
make of a batch is put together from what they make of each file.
-/

namespace Gherkin

/-- A feature file and what came of loading it. -/
structure Reading where
  file : String
  result : Except LoadError Document

/-- What a listing has from one file: what happens meanwhile, and the entries, unless the file
fails. -/
structure Portion (α : Type) where
  events : List Event
  entries? : Option (List α)
  deriving DecidableEq, Repr

/-- What happens when the outline is filled with its rows; an outline without a table passes in
silence. -/
def Outline.fillEvents (o : Outline) : List Event :=
  match o.examples.table, o.instances with
  | some _, .ok rows => [.outlineFilled o.header.line rows.length]
  | _, _ => []

/-- What happens while outlines are filled one after the other, up to the first that cannot be. -/
def Outline.fillAllEvents : List Outline → List Event
  | [] => []
  | o :: os =>
    match o.instances with
    | .ok _ => o.fillEvents ++ fillAllEvents os
    | .error _ => []

namespace Disk

/-- Loads the file at a path. -/
def reading (d : Disk) (path : String) : Reading :=
  ⟨path, d.load path⟩

/-- The feature files that the paths stand for, each loaded. -/
def batch (d : Disk) (paths : List String) : Except SearchError (List Reading) :=
  (·.map d.reading) <$> d.features paths

end Disk

namespace Reading

/-- The file cannot be loaded. -/
def fails (r : Reading) : Bool :=
  match r.result with
  | .ok _ => false
  | .error _ => true

/-- The line that says whether the file can be loaded. -/
def checkLine (r : Reading) : String :=
  match r.result with
  | .ok _ => "ok   " ++ r.file ++ "\n"
  | .error e => "FAIL " ++ r.file ++ ": " ++ e.reason ++ "\n"

/-- What happens when the file is checked. -/
def checkEvent (r : Reading) : Event :=
  match r.result with
  | .ok doc => .fileValid r.file doc.feature.items.length
  | .error e => .fileSkipped r.file e.reason

/-- Checks the file. -/
def check (r : Reading) : List Action :=
  [.log r.checkEvent, .write r.checkLine (.checkResult r.file)]

/-- What a listing has from the file, if it makes the portion `f doc` of a document. -/
def portion (r : Reading) (f : Document → Portion α) : Portion α :=
  match r.result with
  | .ok doc => f doc
  | .error e => ⟨[.fileSkipped r.file e.reason], none⟩

/-- What the listing of steps has from the file. -/
def steps (r : Reading) : Portion StepEntry :=
  r.portion fun doc => ⟨[], some (doc.feature.stepEntries r.file)⟩

/-- What the listing of scenarios has from the file, outlines expanded if `expand` is set. -/
def scenarios (r : Reading) (expand : Bool) : Portion ScenarioEntry :=
  r.portion fun doc =>
    if expand then
      let filled := Outline.fillAllEvents doc.feature.outlines
      match doc.feature.expandedEntries r.file with
      | .ok entries => ⟨filled, some entries⟩
      | .error e => ⟨filled ++ [.outlineFailed r.file e.message], none⟩
    else ⟨[], some (doc.feature.scenarioEntries r.file)⟩

end Reading

/-- The line that sums up a check of files, some of which fail. -/
def checkSummary (files failed : Nat) : String :=
  "checked " ++ toString files ++ " feature file" ++ (if files = 1 then "" else "s") ++ ": "
    ++ toString (files - failed) ++ " ok, " ++ toString failed ++ " failed\n"

namespace Portion

/-- The entries of the files that do not fail, one file after the other. -/
def entries (ps : List (Portion α)) : List α :=
  ps.flatMap fun p => p.entries?.getD []

/-- How many files fail. -/
def failed (ps : List (Portion α)) : Nat :=
  ps.countP fun p => p.entries?.isNone

/-- What happens while the files are listed. -/
def log (ps : List (Portion α)) : List Action :=
  ps.flatMap fun p => p.events.map .log

end Portion

end Gherkin
