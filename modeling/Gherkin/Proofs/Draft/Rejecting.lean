import Gherkin.Proofs.Draft.Leaving
import Gherkin.Proofs.Draft.Taking

/-!
# Elements that reject a line

Each relation `Rejects` lists the violations that an element may find in a line, with the state it
is in and the kind of the line in every case; the theorems after it say that the list is complete.
`Part.Lacks` does the same for parts that may not end yet.
-/

namespace Gherkin

/-- The violation that a step outside of a DocString finds in a line. -/
inductive Step.Rejects (s : Step) (l : Line) : Violation → Prop where
  | argument (kind : l.kind.category = .data) (held : s.argument ≠ none) :
      s.Rejects l (.duplicateArgument l.number l.kind s.line)

theorem StepDraft.rejects_of_feedPlain {s : Step} {l : Line} {v : Violation}
    (h : feedPlain s l = .rejects v) : s.Rejects l v := by
  rcases s with ⟨keyword, line, text, comments, _ | t | d⟩ <;>
    cases hk : l.kind <;> simp only [feedPlain, hk, Verdict.rejects.injEq, reduceCtorEq] at h
  all_goals
    subst h
    rw [← hk]
    exact .argument (by simp [hk, Kind.category]) (by simp)

/-- What a block, opened by a line of kind `own`, finds in a line. -/
inductive BlockDraft.Rejects (own : Kind) (b : BlockDraft) (l : Line) : Violation → Prop where
  | argument {s : Step} {v : Violation} (state : b.current = some (.plain s))
      (rejects : s.Rejects l v) : b.Rejects own l v
  | unexpected (inner : Kind.rule.endedBy l.kind = false) : b.Rejects own l (l.unexpected own)

theorem BlockDraft.rejects_of_feed {own : Kind} {b : BlockDraft} {l : Line} {v : Violation}
    (h : b.feed own l = .rejects v) : b.Rejects own l v := by
  have accepted : ∀ c : BlockDraft, c.accept own l = .rejects v → b.Rejects own l v := by
    intro c h
    cases hk : l.kind <;>
      simp only [accept, hk, Kind.endedBy, if_true, reduceCtorEq] at h
    case step k =>
      split at h <;> cases h
      exact .unexpected (by simp [hk, Kind.endedBy])
    case examples k =>
      split at h <;> cases h
      exact .unexpected (by simp [hk, Kind.endedBy])
    all_goals
      cases h
      exact .unexpected (by simp [hk, Kind.endedBy])
  rcases hb : b.current with _ | s | ⟨s, d⟩ <;> simp only [feed, hb] at h
  · exact accepted b h
  · simp only [StepDraft.feed] at h
    split at h
    · cases h
    · exact accepted _ h
    · next hs =>
      cases h
      exact .argument hb (StepDraft.rejects_of_feedPlain hs)
  · cases h

/-- What a block of examples finds in a line. -/
inductive ExamplesDraft.Rejects (e : ExamplesDraft) (l : Line) : Violation → Prop where
  | table {t : Table} (kind : l.kind = .row) (held : e.table = .ended t) :
      e.Rejects l (.duplicateTable l.number e.kind e.header.line)
  | unexpected (inner : Kind.rule.endedBy l.kind = false) : e.Rejects l (l.unexpected e.kind)

theorem ExamplesDraft.rejects_of_feed {e : ExamplesDraft} {l : Line} {v : Violation}
    (h : e.feed l = .rejects v) : e.Rejects l v := by
  rcases e with ⟨keyword, header, _ | t | t⟩ <;>
    cases hk : l.kind <;>
      simp only [feed, hk, kind, Kind.endedBy, if_true, if_false, Bool.false_eq_true,
        Verdict.rejects.injEq, reduceCtorEq] at h
  all_goals subst h
  case ended.row => exact .table hk rfl
  all_goals exact .unexpected (by simp [hk, Kind.endedBy])

/-- What an outline finds in a line. -/
inductive OutlineDraft.Rejects (o : OutlineDraft) (l : Line) : Violation → Prop where
  | block {v : Violation} (state : o.examples = none) (rejects : o.block.Rejects o.kind l v) :
      o.Rejects l v
  | examples {e : ExamplesDraft} {v : Violation} (state : o.examples = some e)
      (rejects : e.Rejects l v) : o.Rejects l v
  | again {e : ExamplesDraft} {k : ExamplesKeyword} (state : o.examples = some e)
      (kind : l.kind = .examples k) :
      o.Rejects l (.duplicateExamples l.number l.kind o.kind o.block.header.line)

theorem OutlineDraft.rejects_of_feed {o : OutlineDraft} {l : Line} {v : Violation}
    (h : o.feed l = .rejects v) : o.Rejects l v := by
  rcases ho : o.examples with _ | e <;> simp only [feed, ho] at h
  · split at h
    · cases h
    · cases hk : l.kind <;> simp [accept, hk, ho] at h
    · next hb =>
      cases h
      exact .block ho (BlockDraft.rejects_of_feed hb)
  · split at h
    · cases h
    · cases hk : l.kind <;> simp only [accept, hk, ho, Verdict.rejects.injEq, reduceCtorEq] at h
      subst h
      rw [← hk]
      exact .again ho hk
    · next he =>
      cases h
      exact .examples ho (ExamplesDraft.rejects_of_feed he)

/-- What a rule finds in a line. -/
inductive RuleDraft.Rejects (r : RuleDraft) (l : Line) : Violation → Prop where
  | unexpected (state : r.current = none) (inner : Kind.rule.endedBy l.kind = false) :
      r.Rejects l (l.unexpected .rule)
  | scenario {s : ScenarioDraft} {v : Violation} (state : r.current = some s)
      (rejects : s.block.Rejects (.scenario s.keyword) l v) : r.Rejects l v

theorem ScenarioDraft.rejects_of_feed {s : ScenarioDraft} {l : Line} {v : Violation}
    (h : s.feed l = .rejects v) : s.block.Rejects (.scenario s.keyword) l v :=
  BlockDraft.rejects_of_feed (Verdict.map_eq_rejects_iff.1 h)

theorem RuleDraft.rejects_of_feed {r : RuleDraft} {l : Line} {v : Violation}
    (h : r.feed l = .rejects v) : r.Rejects l v := by
  have inner : ∀ r' : RuleDraft, r'.accept l = .rejects v →
      Kind.rule.endedBy l.kind = false ∧ v = l.unexpected .rule := by
    intro r' h
    cases hk : l.kind <;>
      simp only [accept, hk, Kind.endedBy, if_true, if_false, Bool.false_eq_true,
        Verdict.rejects.injEq, reduceCtorEq] at h
    all_goals exact ⟨rfl, h.symm⟩
  rcases hr : r.current with _ | s <;> simp only [feed, hr] at h
  · obtain ⟨inside, rfl⟩ := inner r h
    exact .unexpected hr inside
  · split at h
    · cases h
    · next left =>
      -- a scenario leaves only lines that a rule takes or leaves in turn
      have ended := BlockDraft.endedBy_of_leaves (ScenarioDraft.block_leaves left)
      have inside := (inner _ h).1
      cases hk : l.kind <;> simp [hk, Kind.endedBy] at ended inside
    · next hs =>
      cases h
      exact .scenario hr (ScenarioDraft.rejects_of_feed hs)

/-- What the part of a feature finds in a line. -/
inductive Part.Rejects (l : Line) (v : Violation) : Part → Prop where
  | background {b : BlockDraft} (rejects : b.Rejects .background l v) : Rejects l v (.background b)
  | scenario {s : ScenarioDraft} (rejects : s.block.Rejects (.scenario s.keyword) l v) :
      Rejects l v (.scenario s)
  | rule {r : RuleDraft} (rejects : r.Rejects l v) : Rejects l v (.rule r)
  | outline {o : OutlineDraft} (rejects : o.Rejects l v) : Rejects l v (.outline o)

theorem Part.rejects_of_feed {p : Part} {l : Line} {v : Violation} (h : p.feed l = .rejects v) :
    p.Rejects l v := by
  cases p with
  | opening => cases h
  | background b =>
    exact .background (BlockDraft.rejects_of_feed (Verdict.map_eq_rejects_iff.1 h))
  | scenario s => exact .scenario (ScenarioDraft.rejects_of_feed (Verdict.map_eq_rejects_iff.1 h))
  | rule r => exact .rule (RuleDraft.rejects_of_feed (Verdict.map_eq_rejects_iff.1 h))
  | outline o => exact .outline (OutlineDraft.rejects_of_feed (Verdict.map_eq_rejects_iff.1 h))

/-! ## Parts that may not end -/

/-- The block of steps that the part reads, if there is one. -/
def Part.block? : Part → Option BlockDraft
  | .opening => none
  | .background b => some b
  | .scenario s => some s.block
  | .rule r => r.current.map ScenarioDraft.block
  | .outline o => some o.block

/-- What a part still lacks. -/
inductive Part.Lacks : Part → Violation → Prop where
  | fence {p : Part} {b : BlockDraft} {s : Step} {d : DocDraft} (block : p.block? = some b)
      (state : b.current = some (.quoting s d)) : Lacks p (.unterminatedDocString d.line)
  | step {b : BlockDraft} (closed : b.close = .ok []) :
      Lacks (.background b) (.emptyBackground b.header.line)
  | examples {o : OutlineDraft} {steps : List Step} (closed : o.block.close = .ok steps)
      (state : o.examples = none) : Lacks (.outline o) (.missingExamples o.block.header.line o.kind)

/-- A block that may not end is in a DocString. -/
theorem BlockDraft.close_eq_error {b : BlockDraft} {v : Violation} (h : b.close = .error v) :
    ∃ s d, b.current = some (.quoting s d) ∧ v = .unterminatedDocString d.line := by
  rcases hb : b.current with _ | s | ⟨s, d⟩
  · simp [close_of_none hb] at h
  · simp [close_of_plain hb] at h
  · rw [close_of_quoting hb, Except.error.injEq] at h
    exact ⟨s, d, rfl, h.symm⟩

namespace FeatureDraft

variable {f : FeatureDraft} {l : Line} {v : Violation}

/-- A feature may not be settled because its current part lacks something. -/
theorem lacks_of_settle (h : f.settle = .error v) : f.part.Lacks v := by
  have quoting : ∀ b : BlockDraft, f.part.block? = some b → b.close = .error v →
      f.part.Lacks v := by
    intro b block open_
    obtain ⟨s, d, state, rfl⟩ := BlockDraft.close_eq_error open_
    exact .fence block state
  cases hp : f.part with
  | opening => simp [settle_of_opening hp] at h
  | background b =>
    rw [hp] at quoting
    cases closed : b.close with
    | error w =>
      rw [settle_of_open_background hp (BlockDraft.closeBackground_of_open closed)] at h
      cases h
      exact quoting b rfl closed
    | ok steps =>
      by_cases empty : steps = []
      · subst empty
        rw [settle_of_open_background hp (BlockDraft.closeBackground_of_empty closed)] at h
        cases h
        exact .step closed
      · rw [settle_of_background hp (BlockDraft.closeBackground_of_close closed empty)] at h
        cases h
  | scenario s =>
    rw [hp] at quoting
    cases closed : s.block.close with
    | ok steps => simp [settle_of_scenario hp (ScenarioDraft.close_of_block closed)] at h
    | error w =>
      rw [settle_of_open_scenario hp (ScenarioDraft.close_of_open_block closed)] at h
      cases h
      exact quoting s.block rfl closed
  | rule r =>
    rw [hp] at quoting
    cases hr : r.current with
    | none =>
      have closed := RuleDraft.close_of_closeScenarios (RuleDraft.closeScenarios_of_none hr)
      simp [settle_of_rule hp closed] at h
    | some s =>
      cases closed : s.block.close with
      | ok steps =>
        have told := RuleDraft.closeScenarios_of_some hr (ScenarioDraft.close_of_block closed)
        simp [settle_of_rule hp (RuleDraft.close_of_closeScenarios told)] at h
      | error w =>
        have untold := RuleDraft.closeScenarios_of_open hr
          (ScenarioDraft.close_of_open_block closed)
        rw [settle_of_open_rule hp (RuleDraft.close_of_open untold)] at h
        cases h
        exact quoting s.block (by simp [Part.block?, hr]) closed
  | outline o =>
    rw [hp] at quoting
    cases closed : o.block.close with
    | error w =>
      rw [settle_of_open_outline hp (OutlineDraft.close_of_open_block closed)] at h
      cases h
      exact quoting o.block rfl closed
    | ok steps =>
      cases ho : o.examples with
      | some e => simp [settle_of_outline hp (OutlineDraft.close_of_some closed ho)] at h
      | none =>
        rw [settle_of_open_outline hp (OutlineDraft.close_of_none closed ho)] at h
        cases h
        exact .examples closed ho

/-- What a feature finds in a line. -/
inductive Rejects (f : FeatureDraft) (l : Line) : Violation → Prop where
  | part {v : Violation} (rejects : f.part.Rejects l v) : f.Rejects l v
  | unsettled {v : Violation} (left : f.part.feed l = .leaves) (lacking : f.settle = .error v) :
      f.Rejects l v
  | background {g : FeatureDraft} {b : Background} (settled : f.Settles g)
      (kind : l.kind = .background) (held : g.background = some b) :
      f.Rejects l (.duplicateBackground l.number b.header.line)
  | unexpected (place : f.part = .opening ∨ l.kind = .feature ∨ l.kind = .scenario .example_) :
      f.Rejects l (l.unexpected .feature)

/-- A line that no part takes and the feature does not either. -/
theorem rejects_of_accept {g : FeatureDraft} (left : f.part.feed l = .leaves)
    (settled : f.Settles g) (h : g.accept l = .error v) : f.Rejects l v := by
  -- below a part only a header is left to the feature
  have inner : Kind.rule.endedBy l.kind = false → f.part = .opening := by
    intro inside
    by_cases begun : f.part = .opening
    · exact begun
    · rw [endedBy_of_part_leaves begun left] at inside
      cases inside
  cases hk : l.kind <;> simp only [accept, hk, reduceCtorEq] at h
  case background =>
    cases hb : g.background <;> simp only [hb, Except.error.injEq, reduceCtorEq] at h
    subst h
    exact .background settled hk hb
  case scenario k =>
    cases k <;> simp only [Except.error.injEq, reduceCtorEq] at h
    subst h
    exact .unexpected (.inr (.inr hk))
  case feature =>
    cases h
    exact .unexpected (.inr (.inl hk))
  all_goals
    cases h
    exact .unexpected (.inl (inner (by simp [hk, Kind.endedBy])))

theorem rejects_of_feed (h : f.feed l = .error v) : f.Rejects l v := by
  simp only [feed] at h
  cases hp : f.part.feed l with
  | takes p => simp [hp] at h
  | rejects w =>
    simp only [hp, Except.error.injEq] at h
    subst h
    exact .part (Part.rejects_of_feed hp)
  | leaves =>
    simp only [hp] at h
    cases hs : f.settle with
    | error w =>
      simp only [hs, bind, Except.bind, Except.error.injEq] at h
      subst h
      exact .unsettled hp hs
    | ok g =>
      simp only [hs, bind, Except.bind] at h
      exact rejects_of_accept hp (settles_of_settle hs) h

end FeatureDraft

/-- What a draft finds in a line. -/
inductive Draft.Rejects (l : Line) : Draft → Violation → Prop where
  | preamble {comments : List Comment} (kind : l.kind ≠ .comment ∧ l.kind ≠ .feature) :
      Rejects l (.preamble comments) (.expectedFeature l.number l.kind)
  | body {comments : List Comment} {f : FeatureDraft} {v : Violation} (rejects : f.Rejects l v) :
      Rejects l (.body comments f) v

/-- What a draft still lacks when the input ends. -/
inductive Draft.Lacks : Draft → Violation → Prop where
  | preamble {comments : List Comment} : Lacks (.preamble comments) .missingFeature
  | body {comments : List Comment} {f : FeatureDraft} {v : Violation}
      (lacking : f.settle = .error v) : Lacks (.body comments f) v

namespace Draft

variable {d : Draft} {l : Line} {v : Violation}

theorem rejects_of_feed (h : d.feed l = .error v) : d.Rejects l v := by
  cases d with
  | preamble comments =>
    cases hk : l.kind <;> simp only [feed, hk, Except.error.injEq, reduceCtorEq] at h
    all_goals
      subst h
      rw [← hk]
      exact .preamble (by simp [hk])
  | body comments f =>
    cases hf : f.feed l with
    | ok g => simp [feed, hf, bind, Except.bind, pure, Except.pure] at h
    | error w =>
      simp only [feed, hf, bind, Except.bind, Except.error.injEq] at h
      subst h
      exact .body (FeatureDraft.rejects_of_feed hf)

theorem lacks_of_finish (h : d.finish = .error v) : d.Lacks v := by
  cases d with
  | preamble comments =>
    cases h
    exact .preamble
  | body comments f =>
    cases hf : f.settle with
    | ok g => simp [finish, FeatureDraft.finish, hf, bind, Except.bind, pure, Except.pure] at h
    | error w =>
      simp only [finish, FeatureDraft.finish, hf, bind, Except.bind, Except.error.injEq] at h
      subst h
      exact .body hf

end Draft

end Gherkin
