import Gherkin.Kind

/-!
# Violations of the grammar

Reading a document stops at the first line that the grammar does not allow there, or at the end of
the input if something is still missing. A violation is that cause; `message` puts it in words and
`line?` is the line to look at.
-/

namespace Gherkin

/-- Why lines are no document. -/
inductive Violation where
  /-- There are comments only. -/
  | missingFeature
  /-- The first line that is no comment is no feature header. -/
  | expectedFeature (line : Nat) (found : Kind)
  /-- The feature has a background already. -/
  | duplicateBackground (line first : Nat)
  /-- A background ends without a step. -/
  | emptyBackground (line : Nat)
  /-- The outline has a block of examples already. -/
  | duplicateExamples (line : Nat) (found outline : Kind) (outlineLine : Nat)
  /-- An outline ends without a block of examples. -/
  | missingExamples (line : Nat) (outline : Kind)
  /-- The block of examples has a table already. -/
  | duplicateTable (line : Nat) (owner : Kind) (ownerLine : Nat)
  /-- The step has an argument already. -/
  | duplicateArgument (line : Nat) (found : Kind) (stepLine : Nat)
  /-- The input ends inside a DocString. -/
  | unterminatedDocString (line : Nat)
  /-- No element that is open takes the line. -/
  | unexpectedLine (line : Nat) (found parent : Kind)
  /-- A line is taken for the header of an element of another kind. -/
  | kindMismatch (line : Nat) (expected : String) (found : Kind)
  deriving DecidableEq, Repr

namespace Violation

/-- The line the violation is about. -/
def line? : Violation → Option Nat
  | .missingFeature => none
  | .expectedFeature line _ => some line
  | .duplicateBackground line _ => some line
  | .emptyBackground line => some line
  | .duplicateExamples line _ _ _ => some line
  | .missingExamples line _ => some line
  | .duplicateTable line _ _ => some line
  | .duplicateArgument line _ _ => some line
  | .unterminatedDocString line => some line
  | .unexpectedLine line _ _ => some line
  | .kindMismatch line _ _ => some line

/-- The text of the violation. -/
def message : Violation → String
  | .missingFeature => "no Feature line found"
  | .expectedFeature line found =>
    s!"no Feature line found: line {line} is a " ++ found.label ++ " line"
  | .duplicateBackground line first =>
    s!"duplicated Background at line {line}: the Feature already has one at line {first}"
  | .emptyBackground line => s!"Background at line {line} has no steps"
  | .duplicateExamples line found outline outlineLine =>
    "duplicated " ++ found.label ++ s!" at line {line}: the " ++ outline.label
      ++ s!" at line {outlineLine} already has an Examples or Scenarios block"
  | .missingExamples line outline =>
    outline.label ++ s!" at line {line} has no Examples or Scenarios block"
  | .duplicateTable line owner ownerLine =>
    s!"duplicated DataTable at line {line}: the " ++ owner.label
      ++ s!" at line {ownerLine} already has one"
  | .duplicateArgument line found stepLine =>
    "duplicated step argument: " ++ found.label
      ++ s!" at line {line} follows the step at line {stepLine}, "
      ++ "which already has a DataTable or DocString"
  | .unterminatedDocString line =>
    s!"ending DocString could not be found for the DocString opened at line {line}"
  | .unexpectedLine line found parent =>
    s!"line {line} (" ++ found.label ++ ") does not match an element expected under "
      ++ parent.label
  | .kindMismatch line expected found =>
    "expected " ++ expected ++ s!" at line {line} but found " ++ found.label

end Violation

end Gherkin
