import Gherkin.Proofs.Draft.Leaving
import Gherkin.Proofs.Grammar.Basic

/-!
# What a draft still takes

The remainder of a draft is the language of the kinds that may follow the lines read so far. One
more line takes the quotient of the remainder by its kind (`Draft.rest_feed`), and a draft may end
if its remainder has the empty word (`Draft.finish_isOk_iff`).

An element that is read is followed by what the elements around it take. Where both would take a
line, as with a comment after a row or a scenario below a rule, the element around takes no more
than the inner one does, so that summand is absorbed.
-/

namespace Gherkin

open Computability Grammar

/-- What may follow a line that an element has judged, if `rest` may follow the element that takes
it and `left` may follow the line where the element leaves it. -/
def Verdict.rest (rest : α → Language Kind) (left : Language Kind) : Verdict α → Language Kind
  | .takes a => rest a
  | .leaves => left
  | .rejects _ => 0

@[simp] theorem Verdict.rest_map (f : α → β) (rest : β → Language Kind) (left : Language Kind)
    (v : Verdict α) : (v.map f).rest rest left = v.rest (fun a => rest (f a)) left := by
  cases v <;> rfl

/-- What may follow what has been read or closed: nothing, if that is a violation. -/
def afterRead (rest : α → Language Kind) : Except Violation α → Language Kind
  | .ok a => rest a
  | .error _ => 0

theorem afterRead_bind (rest : β → Language Kind) (x : Except Violation α)
    (f : α → Except Violation β) :
    afterRead rest (x >>= f) = afterRead (fun a => afterRead rest (f a)) x := by
  cases x <;> rfl

namespace StepDraft

/-- What may still follow in the step. -/
def rest : StepDraft → Language Kind
  | .plain s =>
    match s.argument with
    | none => argument
    | some (.table _) => (row + comment)∗
    | some (.docString _) => comment∗
  | .quoting _ _ => quoted∗ * (fence * comment∗)

theorem rest_feedPlain (s : Step) (l : Line) {m : Language Kind}
    (comments : m.leftQuotient [.comment] = m) (rows : m.leftQuotient [.row] = 0)
    (fences : ∀ f, m.leftQuotient [.fence f] = 0) :
    ((rest (.plain s)) * m).leftQuotient [l.kind] =
      (feedPlain s l).rest (·.rest * m) (m.leftQuotient [l.kind]) := by
  rcases s with ⟨keyword, number, text, cs, _ | t | d⟩
  · -- no argument yet
    simp only [rest, feedPlain]
    rw [Language.leftQuotient_mul_of_nil_mem nil_mem_argument, leftQuotient_argument]
    cases l.kind <;>
      simp [Verdict.rest, Step.addComment, comments, rows, fences, Language.absorb_right]
  · -- a table
    simp only [rest, feedPlain]
    rw [leftQuotient_kstar_mul]
    cases l.kind <;>
      simp [Verdict.rest, row, comment, comments, rows, fences, Language.absorb_right,
        Language.nil_mem_kstar]
  · -- a DocString
    simp only [rest, feedPlain]
    rw [leftQuotient_kstar_mul]
    cases l.kind <;>
      simp [Verdict.rest, comment, Step.addComment, comments, rows, fences,
        Language.absorb_right, Language.nil_mem_kstar]

/-- A step takes the comments and the data that may follow it; `m` follows the step. -/
theorem rest_feed (s : StepDraft) (l : Line) {m : Language Kind}
    (comments : m.leftQuotient [.comment] = m) (rows : m.leftQuotient [.row] = 0)
    (fences : ∀ f, m.leftQuotient [.fence f] = 0) :
    (s.rest * m).leftQuotient [l.kind] =
      (s.feed l).rest (·.rest * m) (m.leftQuotient [l.kind]) := by
  cases s with
  | plain s => exact rest_feedPlain s l comments rows fences
  | quoting s d =>
    simp only [rest, feed, feedQuoting, Verdict.rest]
    rw [mul_assoc, leftQuotient_kstar_mul, mul_assoc]
    cases l.kind with
    | fence f => cases f <;> simp [quoted, fence, isFence]
    | _ => simp [quoted, fence, isFence, mul_assoc]

end StepDraft

namespace BlockDraft

/-- What may still follow in a block of steps with the keywords. -/
def rest (ks : List StepKeyword) (b : BlockDraft) : Language Kind :=
  match b.current with
  | none => (entry ks)∗
  | some s => s.rest * (entry ks)∗

section

variable {own : Kind} {ks : List StepKeyword} {m : Language Kind}

theorem rest_accept (keywords : ∀ k, k ∈ ks ↔ own.holds k = true)
    (heads : ∀ k, own.endedBy k = false → m.leftQuotient [k] = 0) {b : BlockDraft}
    (between : b.current = none) (l : Line) :
    ((entry ks)∗ * m).leftQuotient [l.kind] =
      (b.accept own l).rest (·.rest ks * m) (m.leftQuotient [l.kind]) := by
  rw [leftQuotient_kstar_mul, leftQuotient_entry]
  have note : ∀ b' : BlockDraft, b'.current = none → b'.rest ks = (entry ks)∗ := by
    intro b' h
    simp [rest, h]
  cases hk : l.kind with
  | description => simp [accept, hk, Verdict.rest, note, between, heads .description rfl]
  | comment => simp [accept, hk, Verdict.rest, note, between, heads .comment rfl]
  | step k =>
    have none_left := heads (.step k) rfl
    by_cases h : own.holds k = true
    · simp [accept, hk, Verdict.rest, keywords, h, none_left, rest, StepDraft.start,
        StepDraft.rest, mul_assoc]
    · simp [accept, hk, Verdict.rest, keywords, h, none_left]
  | _ => simp only [accept, hk, zero_mul]; split <;> simp_all [Verdict.rest]

/-- A block takes its entries; `m`, which begins with a header that ends the block, follows it. -/
theorem rest_feed (keywords : ∀ k, k ∈ ks ↔ own.holds k = true)
    (heads : ∀ k, own.endedBy k = false → m.leftQuotient [k] = 0) (b : BlockDraft) (l : Line) :
    (b.rest ks * m).leftQuotient [l.kind] =
      (b.feed own l).rest (·.rest ks * m) (m.leftQuotient [l.kind]) := by
  rcases hb : b.current with _ | s
  · have now : b.rest ks = (entry ks)∗ := by simp [rest, hb]
    rw [now, rest_accept keywords heads hb]
    simp [feed, hb]
  · have now : b.rest ks = s.rest * (entry ks)∗ := by simp [rest, hb]
    -- what follows the step are the other entries of the block
    have after : ∀ k, ((entry ks)∗ * m).leftQuotient [k] =
        (entry ks).leftQuotient [k] * ((entry ks)∗ * m) ⊔ m.leftQuotient [k] := by
      intro k
      rw [leftQuotient_kstar_mul, add_eq_sup]
    rw [now, mul_assoc, s.rest_feed l
      (by rw [after, leftQuotient_entry, heads .comment rfl]; simp)
      (by rw [after, leftQuotient_entry, heads .row rfl]; simp)
      (fun f => by rw [after, leftQuotient_entry, heads (.fence f) rfl]; simp)]
    simp only [feed, hb]
    cases hs : s.feed l with
    | takes s' => simp [Verdict.rest, rest, mul_assoc]
    | rejects v => rfl
    | leaves =>
      cases s with
      | quoting s d => simp [StepDraft.feed] at hs
      | plain s =>
        have between : b.settle.current = none := by simp [settle, hb]
        exact rest_accept keywords heads between l

end

/-- The block has a step. -/
def hasStep (b : BlockDraft) : Bool :=
  b.current.isSome || !b.steps.isEmpty

/-- What may still follow in a background, which needs a step. -/
def givenRest (b : BlockDraft) : Language Kind :=
  if b.hasStep then b.rest givens else givenBody

theorem mem_givens (k : StepKeyword) : k ∈ givens ↔ Kind.background.holds k = true := by
  cases k <;> simp [givens, Kind.holds]

theorem hasStep_of_takes {own : Kind} {b b' : BlockDraft} {l : Line}
    (h : b.feed own l = .takes b') (has : b.hasStep = true) : b'.hasStep = true := by
  have accepted : ∀ c : BlockDraft, c.hasStep = true → c.accept own l = .takes b' →
      b'.hasStep = true := by
    intro c hc h
    simp only [accept] at h
    split at h
    · cases h; exact hc
    · cases h; exact hc
    · split at h
      · cases h; rfl
      · cases h
    · split at h <;> cases h
  simp only [feed] at h
  split at h
  · exact accepted b has h
  · next s hs =>
    split at h
    · cases h; rfl
    · refine accepted _ ?_ h
      cases s <;> simp [settle, hs, hasStep]
    · cases h

/-- A background that leaves a line may end if it has a step. -/
theorem afterRead_closeBackground {own : Kind} {b : BlockDraft} {l : Line} (m : Language Kind)
    (h : b.feed own l = .leaves) :
    afterRead (fun _ => m) b.closeBackground = if b.hasStep then m else 0 := by
  have closed := close_of_leaves h
  have has : b.hasStep = true ↔ b.settle.steps ≠ [] := by
    rcases hb : b.current with _ | s | ⟨s, d⟩
    · simp [hasStep, settle, hb]
    · simp [hasStep, settle, hb]
    · simp [feed, hb, StepDraft.feed] at h
  split
  · next h => rw [closeBackground_of_close closed (has.1 h)]; rfl
  · next h =>
    rw [closeBackground_of_empty (by rw [closed, not_not.1 (mt has.2 h)])]; rfl

/-- A background that has no step yet takes its entries and may not be left. -/
theorem givenRest_accept {m : Language Kind} {b : BlockDraft} (has : b.hasStep ≠ true) (l : Line) :
    (givenBody * m).leftQuotient [l.kind] =
      (b.accept .background l).rest (·.givenRest * m) 0 := by
  have note : ∀ h : Header, ({ b with header := h } : BlockDraft).givenRest = givenBody := by
    intro h
    have same : ({ b with header := h } : BlockDraft).hasStep = b.hasStep := rfl
    simp [givenRest, same, has]
  rw [Language.leftQuotient_mul_of_nil_notMem nil_notMem_givenBody, leftQuotient_givenBody]
  cases hk : l.kind with
  | description => simp [accept, hk, Verdict.rest, note]
  | comment => simp [accept, hk, Verdict.rest, note]
  | step k =>
    by_cases h : k ∈ givens
    · have holds := (mem_givens k).1 h
      simp [accept, hk, Verdict.rest, h, holds, givenRest, hasStep, rest, StepDraft.start,
        StepDraft.rest]
    · have excluded : Kind.background.holds k = false := by simpa [mem_givens] using h
      simp [accept, hk, Verdict.rest, h, excluded]
  | _ => simp_all [accept, Verdict.rest, Kind.endedBy]

/-- A background takes its entries, and may be left once it has a step. -/
theorem givenRest_feed {m : Language Kind}
    (heads : ∀ k, Kind.background.endedBy k = false → m.leftQuotient [k] = 0) (b : BlockDraft)
    (l : Line) :
    (b.givenRest * m).leftQuotient [l.kind] = (b.feed .background l).rest (·.givenRest * m)
      (afterRead (fun _ => m.leftQuotient [l.kind]) b.closeBackground) := by
  by_cases has : b.hasStep = true
  · have now : b.givenRest = b.rest givens := by simp [givenRest, has]
    rw [now, rest_feed mem_givens heads]
    cases hb : b.feed .background l with
    | takes b' => simp [Verdict.rest, givenRest, hasStep_of_takes hb has]
    | leaves => simp [Verdict.rest, afterRead_closeBackground _ hb, has]
    | rejects v => rfl
  · have now : b.givenRest = givenBody := by simp [givenRest, has]
    have between : b.current = none := by
      simp only [hasStep, Bool.or_eq_true, not_or] at has
      simpa using has.1
    have fed : b.feed .background l = b.accept .background l := by simp [feed, between]
    rw [now, givenRest_accept has, ← fed]
    cases hb : b.feed .background l with
    | takes b' => rfl
    | leaves => rw [Verdict.rest, Verdict.rest, afterRead_closeBackground _ hb, if_neg has]
    | rejects v => rfl

end BlockDraft

/-- A language that begins, if at all, with the header of something a feature holds. -/
structure Heads (m : Language Kind) : Prop where
  step : ∀ k, m.leftQuotient [.step k] = 0
  examples : ∀ k, m.leftQuotient [.examples k] = 0
  comment : m.leftQuotient [.comment] = 0
  row : m.leftQuotient [.row] = 0
  fence : ∀ f, m.leftQuotient [.fence f] = 0
  description : m.leftQuotient [.description] = 0

theorem Heads.of_endedBy {m : Language Kind} (heads : Heads m) (own k : Kind)
    (h : own.endedBy k = false) : m.leftQuotient [k] = 0 := by
  cases k with
  | step k => exact heads.step k
  | examples k => exact heads.examples k
  | comment => exact heads.comment
  | row => exact heads.row
  | fence f => exact heads.fence f
  | description => exact heads.description
  | _ => simp [Kind.endedBy] at h

namespace ExamplesDraft

/-- What may still follow in a block of examples. -/
def rest (e : ExamplesDraft) : Language Kind :=
  match e.table with
  | .awaited => exampleData
  | .growing _ => (row + comment)∗ * notes
  | .ended _ => notes

/-- A block of examples takes its notes and one table; `m` follows it. -/
theorem rest_feed {m : Language Kind} (heads : Heads m) (e : ExamplesDraft) (l : Line) :
    (e.rest * m).leftQuotient [l.kind] =
      (e.feed l).rest (·.rest * m) (m.leftQuotient [l.kind]) := by
  rcases e with ⟨keyword, header, _ | t | t⟩
  · -- no row yet
    simp only [rest]
    rw [Language.leftQuotient_mul_of_nil_mem nil_mem_exampleData, leftQuotient_exampleData]
    cases hk : l.kind <;>
      simp [feed, hk, Verdict.rest, TableDraft.settle, Kind.endedBy, kind, heads.step,
        heads.comment, heads.row, heads.fence, heads.description]
  · -- among the rows
    simp only [rest, mul_assoc]
    rw [leftQuotient_kstar_mul, leftQuotient_notes_mul]
    cases hk : l.kind <;>
      simp [feed, hk, Verdict.rest, TableDraft.settle, Kind.endedBy, kind, row, comment,
        heads.step, heads.comment, heads.row,
        heads.fence, heads.description, Language.absorb_right, Language.nil_mem_kstar, mul_assoc]
  · -- after the table
    simp only [rest]
    rw [leftQuotient_notes_mul]
    cases hk : l.kind <;>
      simp [feed, hk, Verdict.rest, TableDraft.settle, Kind.endedBy, kind, heads.step,
        heads.comment, heads.row, heads.fence, heads.description]

end ExamplesDraft

namespace OutlineDraft

/-- What may still follow in the outline; nothing, if its examples came inside a DocString. -/
def rest (o : OutlineDraft) : Language Kind :=
  match o.examples, o.block.close with
  | none, _ => o.block.rest StepKeyword.all * Grammar.examples
  | some e, .ok _ => e.rest
  | some _, .error _ => 0

theorem mem_all (o : OutlineDraft) (k : StepKeyword) :
    k ∈ StepKeyword.all ↔ o.kind.holds k = true := by
  cases k <;> simp [StepKeyword.all, Kind.holds, kind]

section

variable {m : Language Kind} {o : OutlineDraft}

/-- An outline that reads its steps takes them and the header of its block of examples. -/
theorem rest_feed_steps (ho : o.examples = none) (l : Line) :
    (o.rest * m).leftQuotient [l.kind] =
      (o.feed l).rest (·.rest * m) (afterRead (fun _ => m.leftQuotient [l.kind]) o.close) := by
  have now : o.rest = o.block.rest StepKeyword.all * Grammar.examples := by simp [rest, ho]
  have after : ∀ k, (Grammar.examples * m).leftQuotient [k] =
      Grammar.examples.leftQuotient [k] * m := by
    intro k
    rw [Language.leftQuotient_mul_of_nil_notMem (by simp [Grammar.examples])]
  have headers : ∀ k, o.kind.endedBy k = false → (Grammar.examples * m).leftQuotient [k] = 0 := by
    intro k h
    rw [after, leftQuotient_examples]
    cases k <;> simp_all [Kind.endedBy, kind]
  rw [now, mul_assoc, BlockDraft.rest_feed o.mem_all headers]
  simp only [feed, ho]
  cases hb : o.block.feed o.kind l with
  | takes b => simp [Verdict.rest, rest, mul_assoc]
  | rejects v => rfl
  | leaves =>
    have closed := BlockDraft.close_of_leaves hb
    have missing := close_of_none closed ho
    have settled : o.block.settle.close = .ok o.block.settle.steps :=
      BlockDraft.close_of_none (BlockDraft.settle_current_of_leaves hb)
    rw [Verdict.rest, after, leftQuotient_examples]
    cases hk : l.kind <;>
      simp [accept, hk, ho, Verdict.rest, rest, missing, settled, afterRead, ExamplesDraft.rest,
        ExamplesDraft.start]

/-- An outline that has a block of examples takes what belongs to the block, if its steps have
ended. -/
theorem rest_feed_examples (heads : Heads m) {e : ExamplesDraft} (ho : o.examples = some e)
    (l : Line) :
    (o.rest * m).leftQuotient [l.kind] =
      (o.feed l).rest (·.rest * m) (afterRead (fun _ => m.leftQuotient [l.kind]) o.close) := by
  simp only [feed, ho]
  cases hb : o.block.close with
  | ok steps =>
    have now : o.rest = e.rest := by simp [rest, ho, hb]
    rw [now, e.rest_feed heads]
    cases he : e.feed l with
    | takes e' => simp [Verdict.rest, rest, hb]
    | rejects v => rfl
    | leaves =>
      cases hk : l.kind <;>
        simp [accept, hk, ho, Verdict.rest, heads.examples, afterRead, close_of_some hb ho]
  | error v =>
    have now : o.rest = 0 := by simp [rest, ho, hb]
    rw [now, zero_mul, Language.leftQuotient_zero]
    cases he : e.feed l with
    | takes e' => simp [Verdict.rest, rest, hb]
    | rejects v => rfl
    | leaves =>
      cases hk : l.kind <;>
        simp [accept, hk, ho, Verdict.rest, afterRead, close_of_open_block hb]

/-- An outline takes its steps and its block of examples, and may end once it has the latter. -/
theorem rest_feed (heads : Heads m) (o : OutlineDraft) (l : Line) :
    (o.rest * m).leftQuotient [l.kind] =
      (o.feed l).rest (·.rest * m) (afterRead (fun _ => m.leftQuotient [l.kind]) o.close) := by
  cases ho : o.examples with
  | none => exact rest_feed_steps ho l
  | some e => exact rest_feed_examples heads ho l

end

end OutlineDraft

namespace RuleDraft

/-- What may still follow in the rule. -/
def rest (r : RuleDraft) : Language Kind :=
  match r.current with
  | none => notes * ruleScenario∗
  | some s => s.block.rest StepKeyword.all * ruleScenario∗

theorem mem_all (k : StepKeyword) (keyword : ScenarioKeyword) :
    k ∈ StepKeyword.all ↔ (Kind.scenario keyword).holds k = true := by
  cases k <;> simp [StepKeyword.all, Kind.holds]

section

variable {m : Language Kind}

theorem rest_scenarios
    (scenarios : m.leftQuotient [.scenario .scenario] = body * m)
    (noExample : m.leftQuotient [.scenario .example_] = 0) (k : Kind) :
    (ruleScenario∗ * m).leftQuotient [k] = match k with
      | .scenario _ => body * (ruleScenario∗ * m)
      | k => m.leftQuotient [k] := by
  rw [leftQuotient_kstar_mul, leftQuotient_ruleScenario]
  cases k with
  | scenario s =>
    cases s with
    | scenario =>
      rw [scenarios, ← mul_add, add_eq_sup, Language.absorb_right (Language.nil_mem_kstar _)]
    | example_ => simp [noExample]
  | _ => simp

/-- A rule that reads no scenario takes its notes and the header of a scenario. -/
theorem rest_accept (heads : Heads m) (scenarios : m.leftQuotient [.scenario .scenario] = body * m)
    (noExample : m.leftQuotient [.scenario .example_] = 0) {r : RuleDraft} (hr : r.current = none)
    (l : Line) :
    (notes * (ruleScenario∗ * m)).leftQuotient [l.kind] =
      (r.accept l).rest (·.rest * m) (m.leftQuotient [l.kind]) := by
  rw [leftQuotient_notes_mul, rest_scenarios scenarios noExample]
  cases hk : l.kind <;>
    simp [accept, hk, hr, Verdict.rest, rest, Kind.endedBy, ScenarioDraft.start,
      BlockDraft.start, BlockDraft.rest, body, mul_assoc, heads.step, heads.examples,
      heads.comment, heads.row, heads.fence, heads.description]

/-- A rule takes its notes and its scenarios, also where `m`, which follows it, has scenarios. -/
theorem rest_feed (heads : Heads m) (scenarios : m.leftQuotient [.scenario .scenario] = body * m)
    (noExample : m.leftQuotient [.scenario .example_] = 0) (r : RuleDraft) (l : Line) :
    (r.rest * m).leftQuotient [l.kind] =
      (r.feed l).rest (·.rest * m) (m.leftQuotient [l.kind]) := by
  rcases hr : r.current with _ | s
  · have now : r.rest = notes * ruleScenario∗ := by simp [rest, hr]
    rw [now, mul_assoc, rest_accept heads scenarios noExample hr]
    simp [feed, hr]
  · have now : r.rest = s.block.rest StepKeyword.all * ruleScenario∗ := by simp [rest, hr]
    have headers : ∀ k, (Kind.scenario s.keyword).endedBy k = false →
        (ruleScenario∗ * m).leftQuotient [k] = 0 := by
      intro k h
      rw [rest_scenarios scenarios noExample, ← heads.of_endedBy _ k h]
      cases k <;> simp_all [Kind.endedBy]
    rw [now, mul_assoc, BlockDraft.rest_feed (fun k => mem_all k s.keyword) headers]
    simp only [feed, hr, ScenarioDraft.feed]
    cases hb : s.block.feed (.scenario s.keyword) l with
    | takes b => simp [Verdict.map, Verdict.rest, rest, mul_assoc]
    | rejects v => rfl
    | leaves =>
      have ended := BlockDraft.endedBy_of_leaves hb
      have closed := ScenarioDraft.close_of_block (BlockDraft.close_of_leaves hb)
      have settled : r.settle.current = none := by
        rw [settle_of_closeScenarios (closeScenarios_of_some hr closed)]
      have skipped : (notes * (ruleScenario∗ * m)).leftQuotient [l.kind] =
          (ruleScenario∗ * m).leftQuotient [l.kind] := by
        rw [leftQuotient_notes_mul]
        cases hk : l.kind <;> simp_all [Kind.endedBy]
      have settling := rest_accept heads scenarios noExample settled l
      rw [skipped] at settling
      exact settling

end

end RuleDraft

end Gherkin
