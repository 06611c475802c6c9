import Gherkin.Proofs.Grammar.Acceptance
import Gherkin.Proofs.Ownership.Documents

/-!
# Completing what has been read

Each draft that reading reaches can be completed, and `completion` says with which kinds: a
DocString needs a fence, a background without steps a step, an outline its block of examples, and
comments alone a feature. `completion_mem_rest` says of each draft that its completion may follow.
-/

namespace Gherkin

open Computability Grammar

/-- The closing fence, if a DocString of the block is open. -/
def BlockDraft.completion (b : BlockDraft) : List Kind :=
  match b.current with
  | some (.quoting _ _) => [.fence .quotes]
  | _ => []

/-- The completion of a background: it needs a step. -/
def BlockDraft.givenCompletion (b : BlockDraft) : List Kind :=
  if b.hasStep then b.completion else [.step .given]

/-- The completion of the steps, and a block of examples if there is none. -/
def OutlineDraft.completion (o : OutlineDraft) : List Kind :=
  match o.examples with
  | none => o.block.completion ++ [.examples .examples]
  | some _ => []

def RuleDraft.completion (r : RuleDraft) : List Kind :=
  match r.current with
  | none => []
  | some s => s.block.completion

def Part.completion : Part → List Kind
  | .opening => []
  | .background b => b.givenCompletion
  | .scenario s => s.block.completion
  | .rule r => r.completion
  | .outline o => o.completion

/-- The kinds that complete the document. -/
def Draft.completion : Draft → List Kind
  | .preamble _ => [.feature]
  | .body _ f => f.part.completion

theorem Grammar.mem_line_of {p : Kind → Bool} {k : Kind} (h : p k = true) : [k] ∈ line p :=
  ⟨k, h, rfl⟩

theorem StepDraft.fence_mem_rest (s : Step) (d : DocDraft) :
    [Kind.fence .quotes] ∈ (quoting s d).rest := by
  have closing : [Kind.fence .quotes] ∈ fence := mem_line_of rfl
  have comments : [] ∈ comment∗ := Language.nil_mem_kstar _
  have content : [] ∈ quoted∗ := Language.nil_mem_kstar _
  exact Language.append_mem_mul content (Language.append_mem_mul closing comments)

theorem StepDraft.nil_mem_rest (s : Step) : [] ∈ (plain s).rest := by
  rcases s with ⟨keyword, line, text, comments, _ | t | d⟩ <;>
    simp [rest, Language.nil_mem_kstar]

namespace BlockDraft

theorem completion_mem_rest (b : BlockDraft) (ks : List StepKeyword) :
    b.completion ∈ b.rest ks := by
  have others : [] ∈ (entry ks)∗ := Language.nil_mem_kstar _
  rcases hb : b.current with _ | s | ⟨s, d⟩
  · simpa [completion, rest, hb] using others
  · simpa [completion, rest, hb] using ⟨StepDraft.nil_mem_rest s, others⟩
  · simpa [completion, rest, hb] using
      Language.append_mem_mul (StepDraft.fence_mem_rest s d) others

theorem givenCompletion_mem_givenRest (b : BlockDraft) : b.givenCompletion ∈ b.givenRest := by
  by_cases has : b.hasStep = true
  · simpa [givenCompletion, givenRest, has] using b.completion_mem_rest givens
  · have others : [] ∈ (entry givens)∗ := Language.nil_mem_kstar _
    have step : [Kind.step .given] ∈ step givens :=
      Language.append_mem_mul (mem_line_of rfl) nil_mem_argument
    have body : [Kind.step .given] ∈ givenBody :=
      Language.append_mem_mul others (Language.append_mem_mul step others)
    simpa [givenCompletion, givenRest, has] using body

end BlockDraft

theorem ExamplesDraft.nil_mem_rest (e : ExamplesDraft) : [] ∈ e.rest := by
  rcases e with ⟨keyword, header, _ | t | t⟩ <;> simp [rest, notes, Language.nil_mem_kstar]

/-- Examples that have been read came after the steps had ended. -/
theorem OutlineDraft.Reads.completion_mem_rest {o : OutlineDraft} {ss : List Section}
    {quoted : List Line} (h : o.Reads ss quoted) : o.completion ∈ o.rest := by
  cases h with
  | steps state =>
    have header : [Kind.examples .examples] ∈ Grammar.examples :=
      Language.append_mem_mul (mem_line_of rfl) nil_mem_exampleData
    simpa [completion, rest, state] using
      Language.append_mem_mul (o.block.completion_mem_rest StepKeyword.all) header
  | examples state closed =>
    simpa [completion, rest, state, closed] using ExamplesDraft.nil_mem_rest _

theorem RuleDraft.completion_mem_rest (r : RuleDraft) : r.completion ∈ r.rest := by
  have others : [] ∈ ruleScenario∗ := Language.nil_mem_kstar _
  rcases hr : r.current with _ | s
  · simpa [completion, rest, hr, notes] using ⟨Language.nil_mem_kstar _, others⟩
  · simpa [completion, rest, hr] using
      Language.append_mem_mul (s.block.completion_mem_rest StepKeyword.all) others

theorem Part.Reads.completion_mem_rest {p : Part} {ss : List Section} {quoted : List Line}
    (h : p.Reads ss quoted) : p.completion ∈ p.rest := by
  cases h with
  | background => exact BlockDraft.givenCompletion_mem_givenRest _
  | scenario => exact BlockDraft.completion_mem_rest _ _
  | rule => exact RuleDraft.completion_mem_rest _
  | outline reads => exact reads.completion_mem_rest

theorem FeatureDraft.Reads.completion_mem_rest {f : FeatureDraft} {ss : List Section}
    {quoted : List Line} (h : f.Reads ss quoted) : f.part.completion ∈ f.rest := by
  have inner : f.part.completion ∈ f.part.rest := by
    cases h with
    | opening state =>
      rw [state]
      exact Language.nil_mem_kstar _
    | part begun told reads => exact reads.completion_mem_rest
  have others : [] ∈ f.remaining := by
    rw [remaining]
    split
    · exact Language.nil_mem_kstar _
    · exact nil_mem_items
  simpa [rest] using Language.append_mem_mul inner others

namespace Draft

/-- The completion of a draft that has been read may follow. -/
theorem Reads.completion_mem_rest {d : Draft} {ls : List Line} (h : d.Reads ls) :
    d.completion ∈ d.rest := by
  cases h with
  | preamble =>
    have none : [] ∈ comment∗ := Language.nil_mem_kstar _
    have body : [] ∈ notes * Grammar.items := by simp [notes, Language.nil_mem_kstar]
    exact Language.append_mem_mul none (Language.append_mem_mul (mem_line_of rfl) body)
  | body comments reads => exact reads.completion_mem_rest

/-- A draft that has been read can be completed. -/
theorem Reads.completes {d : Draft} {ls : List Line} (h : d.Reads ls) :
    ∃ ms doc, (do (← d.feedAll ms).finish) = .ok doc := by
  let blank : Kind → Line := fun k => ⟨k, "", 0, ""⟩
  have kinds : (d.completion.map blank).map Line.kind = d.completion := by
    simp [blank, Function.comp_def]
  refine ⟨d.completion.map blank, (d.completes_iff _).2 ?_⟩
  rw [kinds]
  exact h.completion_mem_rest

theorem reads_of_feedAll {d : Draft} {ls : List Line} (h : empty.feedAll ls = .ok d) :
    d.Reads ls := by
  have nothing : ∀ l ∈ ([] : List Line), l.kind = .comment := by simp
  exact Reads.feedAll (.preamble nothing) h

end Draft

end Gherkin
