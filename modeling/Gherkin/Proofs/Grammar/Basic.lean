import Gherkin.Kind
import Gherkin.Proofs.Grammar.Quotient

/-!
# The grammar of documents

A document is told by the kinds of its lines alone. Its grammar is a regular language over kinds;
each construct below is the language of the lines that it may consist of. `∗` repeats, `+` is a
choice, and `1 + l` is an optional `l`.
-/

namespace Gherkin.Grammar

open Computability

/-- One line of a kind that `p` tells. -/
def line (p : Kind → Bool) : Language Kind :=
  {w | ∃ k, p k = true ∧ w = [k]}

def comment : Language Kind := line fun k => k = .comment

def description : Language Kind := line fun k => k = .description

def row : Language Kind := line fun k => k = .row

/-- The kind is one of the two fences. -/
def isFence (k : Kind) : Bool :=
  k = .fence .quotes || k = .fence .backticks

def fence : Language Kind := line isFence

/-- A line inside a DocString: of any kind but a fence. -/
def quoted : Language Kind := line fun k => !isFence k

/-- A table: rows, and comments among and after them. -/
def table : Language Kind := row * (row + comment)∗

/-- A DocString, closed by a fence of either form, and the comments after it. -/
def docString : Language Kind := fence * (quoted∗ * (fence * comment∗))

/-- What may follow the line of a step: comments, then one argument or none. -/
def argument : Language Kind := comment∗ * (1 + (table + docString))

/-- A step with one of the keywords. -/
def step (ks : List StepKeyword) : Language Kind :=
  line (fun k => decide (k ∈ ks.map Kind.step)) * argument

/-- One entry below the header of a block: a description, a comment or a step. -/
def entry (ks : List StepKeyword) : Language Kind := description + comment + step ks

/-- Free text below a header. -/
def notes : Language Kind := (description + comment)∗

/-- The entries of a scenario or an outline. -/
def body : Language Kind := (entry StepKeyword.all)∗

/-- The keywords that state what is given. -/
def givens : List StepKeyword := [.given, .and, .but, .star]

/-- The entries of a background, one of which is a step. -/
def givenBody : Language Kind := (entry givens)∗ * (step givens * (entry givens)∗)

def background : Language Kind := line (fun k => k = .background) * givenBody

def scenario : Language Kind := line (fun k => k = .scenario .scenario) * body

/-- A scenario of a rule, which may be called an example. -/
def ruleScenario : Language Kind :=
  line (fun k => k = .scenario .scenario || k = .scenario .example_) * body

def rule : Language Kind := line (fun k => k = .rule) * (notes * ruleScenario∗)

/-- What may follow the header of a block of examples: notes around one table or none. -/
def exampleData : Language Kind := notes * (1 + table * notes)

def examples : Language Kind :=
  line (fun k => k = .examples .examples || k = .examples .scenarios) * exampleData

def outline : Language Kind :=
  line (fun k => k = .outline .outline || k = .outline .template) * (body * examples)

/-- What a feature may hold any number of. -/
def item : Language Kind := scenario + rule + outline

/-- Items, at most one background among them. -/
def items : Language Kind := item∗ * (1 + background * item∗)

def feature : Language Kind := line (fun k => k = .feature) * (notes * items)

/-- A document: comments and a feature. -/
def document : Language Kind := comment∗ * feature

/-! The empty word, construct by construct. -/

theorem mem_line {p : Kind → Bool} {w : List Kind} : w ∈ line p ↔ ∃ k, p k = true ∧ w = [k] :=
  Iff.rfl

@[simp] theorem nil_notMem_line (p : Kind → Bool) : [] ∉ line p := by
  simp [mem_line]

@[simp] theorem nil_mem_argument : [] ∈ argument := by
  simp [argument, Language.nil_mem_kstar]

@[simp] theorem nil_mem_exampleData : [] ∈ exampleData := by
  simp [exampleData, notes, Language.nil_mem_kstar]

@[simp] theorem nil_notMem_givenBody : [] ∉ givenBody := by
  simp [givenBody, step]

@[simp] theorem nil_mem_items : [] ∈ items := by
  simp [items, Language.nil_mem_kstar]

/-! What may follow one line, construct by construct. -/

@[simp] theorem leftQuotient_line (p : Kind → Bool) (k : Kind) :
    (line p).leftQuotient [k] = if p k then 1 else 0 := by
  ext w
  simp only [Language.mem_leftQuotient, List.singleton_append, mem_line, List.cons.injEq]
  split
  · next h => simp [h]
  · next h =>
    simp only [Language.notMem_zero, iff_false]
    rintro ⟨k', hk, rfl, -⟩
    exact h hk

@[simp] theorem leftQuotient_line_mul (p : Kind → Bool) (l : Language Kind) (k : Kind) :
    (line p * l).leftQuotient [k] = if p k then l else 0 := by
  rw [Language.leftQuotient_mul_of_nil_notMem (nil_notMem_line p), leftQuotient_line]
  split <;> simp

/-- One round of `l` and the rest of the rounds before `m`, or the beginning of `m`. -/
theorem leftQuotient_kstar_mul (l m : Language Kind) (k : Kind) :
    (l∗ * m).leftQuotient [k] = l.leftQuotient [k] * (l∗ * m) + m.leftQuotient [k] := by
  rw [Language.leftQuotient_mul_of_nil_mem (Language.nil_mem_kstar l),
    Language.leftQuotient_kstar, mul_assoc]

theorem leftQuotient_argument (k : Kind) :
    argument.leftQuotient [k] = match k with
      | .comment => argument
      | .row => (row + comment)∗
      | .fence _ => quoted∗ * (fence * comment∗)
      | _ => 0 := by
  rw [argument, leftQuotient_kstar_mul]
  cases k with
  | fence f => cases f <;> simp [comment, table, docString, row, fence, isFence]
  | _ => simp [comment, table, docString, row, fence, isFence]

theorem leftQuotient_step (ks : List StepKeyword) (k : Kind) :
    (step ks).leftQuotient [k] = match k with
      | .step s => if s ∈ ks then argument else 0
      | _ => 0 := by
  cases k <;> simp [step]

theorem leftQuotient_entry (ks : List StepKeyword) (k : Kind) :
    (entry ks).leftQuotient [k] = match k with
      | .description | .comment => 1
      | .step s => if s ∈ ks then argument else 0
      | _ => 0 := by
  cases k <;> simp [entry, description, comment, leftQuotient_step]

theorem leftQuotient_notes_mul (l : Language Kind) (k : Kind) :
    (notes * l).leftQuotient [k] = match k with
      | .description | .comment => notes * l ⊔ l.leftQuotient [k]
      | _ => l.leftQuotient [k] := by
  rw [notes, leftQuotient_kstar_mul]
  cases k <;> simp [description, comment]

theorem leftQuotient_exampleData (k : Kind) :
    exampleData.leftQuotient [k] = match k with
      | .description | .comment => exampleData
      | .row => (row + comment)∗ * notes
      | _ => 0 := by
  rw [exampleData, leftQuotient_notes_mul]
  cases k <;> simp [table, row, mul_assoc]

theorem leftQuotient_examples (k : Kind) :
    examples.leftQuotient [k] = match k with
      | .examples _ => exampleData
      | _ => 0 := by
  rw [examples, leftQuotient_line_mul]
  cases k with
  | examples e => cases e <;> simp
  | _ => simp

theorem leftQuotient_ruleScenario (k : Kind) :
    ruleScenario.leftQuotient [k] = match k with
      | .scenario _ => body
      | _ => 0 := by
  rw [ruleScenario, leftQuotient_line_mul]
  cases k with
  | scenario s => cases s <;> simp
  | _ => simp

theorem leftQuotient_item (k : Kind) :
    item.leftQuotient [k] = match k with
      | .scenario .scenario => body
      | .rule => notes * ruleScenario∗
      | .outline _ => body * examples
      | _ => 0 := by
  cases k with
  | scenario s => cases s <;> simp [item, scenario, rule, outline]
  | outline o => cases o <;> simp [item, scenario, rule, outline]
  | _ => simp [item, scenario, rule, outline]

theorem leftQuotient_items (k : Kind) :
    items.leftQuotient [k] = match k with
      | .background => givenBody * item∗
      | k => item.leftQuotient [k] * items := by
  rw [items, leftQuotient_kstar_mul]
  cases k <;> simp [background, mul_assoc, leftQuotient_item]

theorem leftQuotient_givenBody (k : Kind) :
    givenBody.leftQuotient [k] = match k with
      | .description | .comment => givenBody
      | .step s => if s ∈ givens then argument * (entry givens)∗ else 0
      | _ => 0 := by
  have singled : step givens ≤ entry givens := le_sup_right
  have rounds := Language.kstar_mul_mul_kstar_le singled
  have nonempty : [] ∉ step givens := by simp [step]
  rw [givenBody, leftQuotient_kstar_mul, leftQuotient_entry,
    Language.leftQuotient_mul_of_nil_notMem nonempty, leftQuotient_step]
  cases k with
  | step s =>
    by_cases h : s ∈ givens
    · simp only [h, if_true, add_eq_sup]
      exact sup_eq_right.2 (by gcongr)
    · simp [h]
  | _ => simp

end Gherkin.Grammar
