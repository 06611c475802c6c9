import Gherkin.Draft.Milestone
import Gherkin.Text.Quoted
import Gherkin.Text.Terminal

/-!
# The log

What happens during a run is an event with a level. The log shows events from a chosen level up,
one on a line: the level, what happened, and the values that go with it. What happened is put
so that a terminal does not obey it; of the values, titles and texts of documents are quoted, and
paths, keywords and reasons are written as they are.
-/

namespace Gherkin

/-- How much an event matters. -/
inductive Level where
  | trace | debug | info | warn | error
  deriving DecidableEq, Repr

namespace Level

/-- The place of the level, from the least to the most important. -/
def rank : Level → Nat
  | .trace => 0
  | .debug => 1
  | .info => 2
  | .warn => 3
  | .error => 4

/-- The name of the level. -/
def name : Level → String
  | .trace => "trace"
  | .debug => "debug"
  | .info => "info"
  | .warn => "warn"
  | .error => "error"

/-- The level as the log shows it, five characters wide. -/
def column : Level → String
  | .trace => "TRACE"
  | .debug => "DEBUG"
  | .info => " INFO"
  | .warn => " WARN"
  | .error => "ERROR"

/-- A log of level `chosen` shows events of the level. -/
def shows (chosen level : Level) : Bool :=
  chosen.rank ≤ level.rank

/-- Reads a level, white space around it and its case aside. No character beyond ASCII has one of
the letters of these words as its lower case. -/
def ofText? (s : String) : Option Level :=
  match String.ofList ((Text.trim s.toList).map Char.toLower) with
  | "trace" => some .trace
  | "debug" => some .debug
  | "info" => some .info
  | "warn" | "warning" => some .warn
  | "error" => some .error
  | _ => none

end Level

/-- What happens during a run. -/
inductive Event where
  | started (version : String)
  | discovered (count : Nat)
  | fileRead (path : String) (lines : Nat)
  | reached (milestone : Milestone)
  | outlineFilled (line rows : Nat)
  | fileValid (path : String) (items : Nat)
  | fileSkipped (path reason : String)
  | outlineFailed (path reason : String)
  | checked (files failed : Nat)
  | filesFailed (count : Nat)
  | commandFailed (message : String)
  | settingsInvalid (message : String)
  deriving DecidableEq, Repr

namespace Event

/-- The level of the event. -/
def level : Event → Level
  | .reached (.step _) => .trace
  | .started _ | .discovered _ | .fileRead _ _ | .reached _ | .outlineFilled _ _
  | .fileValid _ _ | .filesFailed _ => .debug
  | .checked _ _ => .info
  | .fileSkipped _ _ | .outlineFailed _ _ => .warn
  | .commandFailed _ | .settingsInvalid _ => .error

/-- What happened. -/
def message : Event → String
  | .started _ => "starting reqtrace"
  | .discovered _ => "discovered feature files"
  | .fileRead _ _ => "read feature file"
  | .reached (.step _) => "extracted step"
  | .reached (.background _) => "extracted background"
  | .reached (.scenario _) => "extracted scenario"
  | .reached (.rule _) => "extracted rule"
  | .reached (.outline _) => "extracted scenario outline"
  | .reached (.feature _) => "parsed feature"
  | .outlineFilled _ _ => "expanded scenario outline"
  | .fileValid _ _ => "feature file is valid"
  | .fileSkipped _ _ => "skipping feature file"
  | .outlineFailed _ _ => "cannot expand scenario outline"
  | .checked _ _ => "check complete"
  | .filesFailed _ => "some feature files failed"
  | .commandFailed message => message
  | .settingsInvalid _ => "invalid configuration"

/-- The values that go with a milestone, by name. -/
def milestoneFields : Milestone → List (String × String)
  | .step s =>
    [("line", toString s.line), ("keyword", s.keyword.text), ("text", Text.quoted s.text)]
  | .background b => [("line", toString b.header.line), ("steps", toString b.steps.length)]
  | .scenario s =>
    [("line", toString s.header.line), ("title", Text.quoted s.header.title),
      ("steps", toString s.steps.length)]
  | .rule r => [("line", toString r.header.line), ("scenarios", toString r.scenarios.length)]
  | .outline o =>
    [("line", toString o.header.line), ("title", Text.quoted o.header.title),
      ("steps", toString o.steps.length)]
  | .feature f =>
    [("title", Text.quoted f.header.title), ("children", toString f.items.length)]

/-- The values that go with the event, by name. -/
def fields : Event → List (String × String)
  | .started version => [("version", Text.quoted version)]
  | .discovered count => [("count", toString count)]
  | .fileRead path lines => [("path", path), ("lines", toString lines)]
  | .reached m => milestoneFields m
  | .outlineFilled line rows => [("line", toString line), ("rows", toString rows)]
  | .fileValid path items => [("path", path), ("children", toString items)]
  | .fileSkipped path reason | .outlineFailed path reason => [("path", path), ("error", reason)]
  | .checked files failed => [("files", toString files), ("failed", toString failed)]
  | .filesFailed count => [("failed", toString count)]
  | .commandFailed _ => []
  | .settingsInvalid message => [("error", message)]

/-- The line of the event in the log. -/
def written (e : Event) : String :=
  e.level.column ++ " " ++ Text.readable e.message
    ++ String.join (e.fields.map fun f => " " ++ f.1 ++ "=" ++ f.2) ++ "\n"

end Event

/-- The log of a run, from the level `chosen` up. -/
def Level.log (chosen : Level) (events : List Event) : String :=
  String.join ((events.filter fun e => chosen.shows e.level).map Event.written)

end Gherkin
