import Gherkin.Text.Blank

/-!
# Keywords

The words that open a step, a scenario, an outline and a block of examples, and the two fences
around a DocString. `And`, `But` and `*` are conjunctions: such a step continues what the nearest
`Given`, `When` or `Then` before it said, and `Given` if there is none.
-/

namespace Gherkin

/-- The word that opens a step. -/
inductive StepKeyword where
  | given | when | then_ | and | but | star
  deriving DecidableEq, Repr

/-- The word over a concrete scenario. -/
inductive ScenarioKeyword where
  | scenario | example_
  deriving DecidableEq, Repr

/-- The word over an outline; the two spellings mean the same. -/
inductive OutlineKeyword where
  | outline | template
  deriving DecidableEq, Repr

/-- The word over the data of an outline; the two spellings mean the same. -/
inductive ExamplesKeyword where
  | examples | scenarios
  deriving DecidableEq, Repr

/-- The delimiter of a DocString: three double quotes or three backticks. -/
inductive Fence where
  | quotes | backticks
  deriving DecidableEq, Repr

namespace StepKeyword

/-- Every step keyword. -/
def all : List StepKeyword :=
  [.and, .but, .given, .star, .then_, .when]

/-- The keyword as it is written. -/
def text : StepKeyword → String
  | .given => "Given"
  | .when => "When"
  | .then_ => "Then"
  | .and => "And"
  | .but => "But"
  | .star => "*"

/-- The keyword written in `s`, white space around it aside. -/
def ofText? (s : String) : Option StepKeyword :=
  all.find? fun k => k.text == Text.trimmed s

/-- The keyword continues what an earlier step said. -/
def isConjunction : StepKeyword → Bool
  | .and | .but | .star => true
  | .given | .when | .then_ => false

/-- What a step says after the steps whose last `Given`, `When` or `Then` was `before`. -/
def resolve (before : Option StepKeyword) (k : StepKeyword) : StepKeyword :=
  if k.isConjunction then before.getD .given else k

/-- The last `Given`, `When` or `Then` once a step with keyword `k` is read as well. -/
def remember (before : Option StepKeyword) (k : StepKeyword) : Option StepKeyword :=
  if k.isConjunction then before else some k

/-- The meaning of each keyword of a sequence of steps. -/
def resolveFrom (before : Option StepKeyword) : List StepKeyword → List StepKeyword
  | [] => []
  | k :: ks => k.resolve before :: resolveFrom (k.remember before) ks

end StepKeyword

/-- A text that is no step keyword, white space around it dropped. -/
structure UnknownKeyword where
  text : String
  deriving DecidableEq, Repr

namespace UnknownKeyword

/-- The text of the error. -/
def message (e : UnknownKeyword) : String :=
  "invalid step keyword: " ++ e.text

end UnknownKeyword

/-- Reads a step keyword, white space around it aside. -/
def StepKeyword.read (s : String) : Except UnknownKeyword StepKeyword :=
  match ofText? s with
  | some k => .ok k
  | none => .error ⟨Text.trimmed s⟩

/-- The delimiter as it is written. -/
def Fence.text : Fence → String
  | .quotes => "\"\"\""
  | .backticks => "```"

@[simp] theorem StepKeyword.length_resolveFrom (before : Option StepKeyword)
    (ks : List StepKeyword) : (resolveFrom before ks).length = ks.length := by
  induction ks generalizing before with
  | nil => rfl
  | cons k ks ih => simp [resolveFrom, ih]

end Gherkin
