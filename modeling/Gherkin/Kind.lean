import Gherkin.Keyword

/-!
# Kinds of lines

Every line that is not blank has one kind. Steps and headers carry their keyword; a fence carries
its delimiter. A kind knows how its lines are written (`lead`), how messages name it (`label`) and
which lines end the element that a line of it opens (`endedBy`).
-/

namespace Gherkin

/-- The kind of a line. -/
inductive Kind where
  | step (keyword : StepKeyword)
  | feature
  | background
  | rule
  | scenario (keyword : ScenarioKeyword)
  | outline (keyword : OutlineKeyword)
  | examples (keyword : ExamplesKeyword)
  | comment
  | row
  | fence (fence : Fence)
  | description
  deriving DecidableEq, Repr

/-- The role of a line in the document. -/
inductive Category where
  | container | step | data | comment | description
  deriving DecidableEq, Repr

namespace Kind

/-- The kinds of header lines. -/
def headers : List Kind :=
  [.background, .feature, .scenario .example_, .examples .examples, .rule, .scenario .scenario,
   .examples .scenarios, .outline .outline, .outline .template]

/-- The word or mark by which a line of the kind is known. -/
def keyword : Kind → String
  | .step k => k.text
  | .feature => "Feature"
  | .background => "Background"
  | .rule => "Rule"
  | .scenario .scenario => "Scenario"
  | .scenario .example_ => "Example"
  | .outline .outline => "Scenario Outline"
  | .outline .template => "Scenario Template"
  | .examples .examples => "Examples"
  | .examples .scenarios => "Scenarios"
  | .comment => "#"
  | .row => "|"
  | .fence f => f.text
  | .description => ""

/-- The role of lines of the kind. -/
def category : Kind → Category
  | .step _ => .step
  | .feature | .background | .rule | .scenario _ | .outline _ | .examples _ => .container
  | .comment => .comment
  | .row | .fence _ => .data
  | .description => .description

/-- The name of the kind in messages. -/
def label : Kind → String
  | .comment => "Comment"
  | .row => "DataTable"
  | .fence _ => "DocString"
  | .description => "Description"
  | k => k.keyword

/-- What is written in front of the payload of a line of the kind. -/
def lead (k : Kind) : String :=
  match k with
  | .row | .description => ""
  | .comment | .step _ | .fence _ => k.keyword ++ " "
  | _ => k.keyword ++ ": "

/-- The line of the kind that carries `text`, without white space at its end. -/
def written (k : Kind) (text : String) : String :=
  Text.trimmedEnd (k.lead ++ text)

/-- The step keyword of a step line. -/
def step? : Kind → Option StepKeyword
  | .step k => some k
  | _ => none

/-- A line of kind `k` ends the element that a line of kind `own` opens: an element around it may
take the line. A block of examples ends its outline's steps and any block of examples. -/
def endedBy (own : Kind) : Kind → Bool
  | .feature | .background | .rule | .scenario _ | .outline _ => true
  | .examples _ =>
    match own with
    | .outline _ | .examples _ => true
    | _ => false
  | _ => false

/-- The element that a line of kind `own` opens may hold steps with the keyword: a background
states what is given, so it has no `When` and no `Then`. -/
def holds (own : Kind) : StepKeyword → Bool
  | .when | .then_ => own != .background
  | _ => true

end Kind

end Gherkin
