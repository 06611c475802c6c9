import Gherkin.Disk.Search
import Gherkin.Loading
import Gherkin.Output

/-!
# Faults

A fault ends a command: the files cannot be found, the one file to render cannot be loaded, or
the output fails. Its text is the chain of its causes, the outermost first.
-/

namespace Gherkin

/-- Why a command ends early. -/
inductive Fault where
  | search (cause : SearchError)
  | load (cause : LoadError)
  | output (cause : OutputError)
  deriving DecidableEq, Repr

namespace Fault

/-- The outermost text. -/
def top : Fault → String
  | .search cause => cause.message
  | .load cause => cause.message
  | .output cause => cause.purpose.complaint

/-- The texts of the fault and of its causes, the outermost first. -/
def chain : Fault → List String
  | .search cause => cause.chain
  | .load cause => cause.chain
  | .output cause => cause.chain

/-- The whole text. -/
def message (f : Fault) : String :=
  String.intercalate ": " f.chain

end Fault

end Gherkin
