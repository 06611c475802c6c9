import Gherkin.Disk
import Gherkin.Log

/-!
# Loading documents

A feature file holds UTF-8 text; a byte order mark at its beginning does not belong to the text.
Loading fails if the file cannot be read, or if its lines are no document.
-/

namespace Gherkin

/-- Why a feature file cannot be loaded. -/
inductive LoadError where
  | unreadable (path : String) (cause : DiskError)
  | invalid (path : String) (cause : Violation)
  deriving DecidableEq, Repr

namespace LoadError

/-- The file that cannot be loaded. -/
def path : LoadError → String
  | .unreadable path _ => path
  | .invalid path _ => path

/-- The text of the cause, without the path. -/
def reason : LoadError → String
  | .unreadable _ cause => cause.message
  | .invalid _ cause => cause.message

/-- The text of the error. -/
def message (e : LoadError) : String :=
  match e with
  | .unreadable path _ => "failed to read feature file " ++ path ++ ": " ++ e.reason
  | .invalid path _ => "invalid Gherkin in " ++ path ++ ": " ++ e.reason

/-- The texts of the error and of its cause. -/
def chain (e : LoadError) : List String :=
  [e.message, e.reason]

end LoadError

namespace Text

/-- The text without a byte order mark in front. -/
def withoutMark (s : String) : String :=
  match s.toList with
  | '\ufeff' :: cs => .ofList cs
  | _ => s

/-- The lines of a file with these bytes, if they are UTF-8. -/
def linesOfBytes (bytes : ByteArray) : Except DiskError (List String) :=
  match String.fromUTF8? bytes with
  | some s => .ok (lines (withoutMark s))
  | none => .error .invalidText

end Text

namespace Disk

/-- The lines of the file at a path. -/
def readLines (d : Disk) (path : String) : Except DiskError (List String) := do
  Text.linesOfBytes (← d.read path)

/-- Loads the document in the file at a path. -/
def load (d : Disk) (path : String) : Except LoadError Document :=
  match d.readLines path with
  | .error e => .error (.unreadable path e)
  | .ok raws =>
    match Document.ofLines (Line.readAll raws) with
    | .error v => .error (.invalid path v)
    | .ok doc => .ok doc

/-- What happens while the file at a path is loaded. -/
def loadEvents (d : Disk) (path : String) : List Event :=
  match d.readLines path with
  | .error _ => []
  | .ok raws =>
    .fileRead path raws.length :: (Document.progress (Line.readAll raws)).map .reached

end Disk

end Gherkin
