import Gherkin.Draft

/-!
# Elements that leave a line

An element that leaves a line is left for a header: `endedBy_of_leaves` says of which kinds. It is
in no DocString then, so its steps are complete: `close_of_leaves` and the `close` equations say
what it has become.
-/

namespace Gherkin

namespace Verdict

variable {f : α → β} {v : Verdict α}

@[simp] theorem map_eq_takes_iff {b : β} : v.map f = .takes b ↔ ∃ a, v = .takes a ∧ f a = b := by
  cases v <;> simp [map]

@[simp] theorem map_eq_leaves_iff : v.map f = .leaves ↔ v = .leaves := by
  cases v <;> simp [map]

@[simp] theorem map_eq_rejects_iff {w : Violation} : v.map f = .rejects w ↔ v = .rejects w := by
  cases v <;> simp [map]

end Verdict

namespace BlockDraft

variable {own : Kind} {b : BlockDraft} {l : Line}

theorem close_of_none (h : b.current = none) : b.close = .ok b.steps := by
  simp [close, h]

theorem close_of_quoting {s : Step} {d : DocDraft} (h : b.current = some (.quoting s d)) :
    b.close = .error (.unterminatedDocString d.line) := by
  simp only [close, h, StepDraft.close]
  rfl

theorem close_of_plain {s : Step} (h : b.current = some (.plain s)) :
    b.close = .ok (b.steps ++ [s]) := by
  simp only [close, h, StepDraft.close]
  rfl

/-- A line that a block leaves ends the block. -/
theorem endedBy_of_leaves (h : b.feed own l = .leaves) : own.endedBy l.kind = true := by
  have accepted : ∀ c : BlockDraft, c.accept own l = .leaves → own.endedBy l.kind = true := by
    intro c h
    simp only [accept] at h
    split at h
    · cases h
    · cases h
    · split at h <;> cases h
    · split at h
      · assumption
      · cases h
  simp only [feed] at h
  split at h
  · exact accepted _ h
  · split at h
    · cases h
    · exact accepted _ h
    · cases h

/-- A block that leaves a line is in no DocString. -/
theorem close_of_leaves (h : b.feed own l = .leaves) : b.close = .ok b.settle.steps := by
  rcases hb : b.current with _ | s | ⟨s, d⟩
  · simp [close_of_none hb, settle, hb]
  · simp [close_of_plain hb, settle, hb]
  · simp [feed, hb, StepDraft.feed] at h

theorem settle_current_of_leaves (h : b.feed own l = .leaves) : b.settle.current = none := by
  rcases hb : b.current with _ | s | ⟨s, d⟩
  · simp [settle, hb]
  · simp [settle, hb]
  · simp [feed, hb, StepDraft.feed] at h

end BlockDraft

namespace ScenarioDraft

theorem close_of_block {s : ScenarioDraft} {steps : List Step} (h : s.block.close = .ok steps) :
    s.close = .ok ⟨s.keyword, s.block.header, steps⟩ := by
  simp [close, h, bind, Except.bind, pure, Except.pure]

theorem close_of_open_block {s : ScenarioDraft} {v : Violation} (h : s.block.close = .error v) :
    s.close = .error v := by
  simp [close, h, bind, Except.bind]

theorem block_leaves {s : ScenarioDraft} {l : Line} (h : s.feed l = .leaves) :
    s.block.feed (.scenario s.keyword) l = .leaves := by
  simpa [feed] using h

end ScenarioDraft

namespace BlockDraft

theorem closeBackground_of_close {b : BlockDraft} {steps : List Step} (h : b.close = .ok steps)
    (nonempty : steps ≠ []) : b.closeBackground = .ok ⟨b.header, steps⟩ := by
  simp [closeBackground, h, nonempty, bind, Except.bind, pure, Except.pure]

theorem closeBackground_of_empty {b : BlockDraft} (h : b.close = .ok []) :
    b.closeBackground = .error (.emptyBackground b.header.line) := by
  simp [closeBackground, h, bind, Except.bind, throw, throwThe, MonadExceptOf.throw]

theorem closeBackground_of_open {b : BlockDraft} {v : Violation} (h : b.close = .error v) :
    b.closeBackground = .error v := by
  simp [closeBackground, h, bind, Except.bind]

theorem closeBackground_eq_ok {b : BlockDraft} {c : Background} (h : b.closeBackground = .ok c) :
    b.close = .ok c.steps ∧ c.steps ≠ [] ∧ c.header = b.header := by
  cases closed : b.close with
  | error v => simp [closeBackground_of_open closed] at h
  | ok steps =>
    by_cases empty : steps = []
    · rw [empty] at closed
      simp [closeBackground_of_empty closed] at h
    · rw [closeBackground_of_close closed empty] at h
      cases h
      exact ⟨rfl, empty, rfl⟩

end BlockDraft

/-- A line that a block of examples leaves is a header. -/
theorem ExamplesDraft.endedBy_of_leaves {e : ExamplesDraft} {l : Line} (h : e.feed l = .leaves) :
    e.kind.endedBy l.kind = true := by
  simp only [feed] at h
  split at h
  · cases h
  · cases h
  · cases h
  · cases h
  · cases h
  · cases h
  · split at h
    · assumption
    · cases h

namespace OutlineDraft

variable {o : OutlineDraft} {l : Line}

theorem close_of_some {steps : List Step} {e : ExamplesDraft} (h : o.block.close = .ok steps)
    (he : o.examples = some e) :
    o.close = .ok ⟨o.keyword, o.block.header, steps, e.close⟩ := by
  simp [close, h, he, bind, Except.bind, pure, Except.pure]

theorem close_of_none {steps : List Step} (h : o.block.close = .ok steps)
    (he : o.examples = none) : o.close = .error (.missingExamples o.block.header.line o.kind) := by
  simp [close, h, he, bind, Except.bind, throw, throwThe, MonadExceptOf.throw]

theorem close_of_open_block {v : Violation} (h : o.block.close = .error v) :
    o.close = .error v := by
  simp [close, h, bind, Except.bind]

/-- A line that an outline leaves ends what a feature holds. -/
theorem endedBy_of_leaves (h : o.feed l = .leaves) : Kind.rule.endedBy l.kind = true := by
  have outer : ∀ own : Kind, own.endedBy l.kind = true → o.accept l = .leaves →
      Kind.rule.endedBy l.kind = true := by
    intro own ended h
    cases hk : l.kind with
    | examples k => cases ho : o.examples <;> simp [accept, hk, ho] at h
    | _ => simp_all [Kind.endedBy]
  simp only [feed] at h
  split at h
  · split at h
    · cases h
    · next left => exact outer _ (BlockDraft.endedBy_of_leaves left) h
    · cases h
  · split at h
    · cases h
    · next left => exact outer _ (ExamplesDraft.endedBy_of_leaves left) h
    · cases h

end OutlineDraft

namespace RuleDraft

variable {r : RuleDraft} {l : Line}

theorem closeScenarios_of_none (h : r.current = none) : r.closeScenarios = .ok r.scenarios := by
  simp [closeScenarios, h]

theorem closeScenarios_of_some {s : ScenarioDraft} {c : Scenario} (h : r.current = some s)
    (hs : s.close = .ok c) : r.closeScenarios = .ok (r.scenarios ++ [c]) := by
  simp [closeScenarios, h, hs, bind, Except.bind, pure, Except.pure]

theorem closeScenarios_of_open {s : ScenarioDraft} {v : Violation} (h : r.current = some s)
    (hs : s.close = .error v) : r.closeScenarios = .error v := by
  simp [closeScenarios, h, hs, bind, Except.bind]

theorem close_of_open {v : Violation} (h : r.closeScenarios = .error v) :
    r.close = .error v := by
  simp [close, h, bind, Except.bind]

theorem close_of_closeScenarios {ss : List Scenario} (h : r.closeScenarios = .ok ss) :
    r.close = .ok ⟨r.header, ss⟩ := by
  simp [close, h, bind, Except.bind, pure, Except.pure]

theorem closeScenarios_of_close {c : Rule} (h : r.close = .ok c) :
    r.closeScenarios = .ok c.scenarios ∧ c.header = r.header := by
  cases closed : r.closeScenarios with
  | error v => simp [close_of_open closed] at h
  | ok ss =>
    rw [close_of_closeScenarios closed] at h
    cases h
    exact ⟨rfl, rfl⟩

theorem settle_of_closeScenarios {ss : List Scenario} (h : r.closeScenarios = .ok ss) :
    r.settle = { r with scenarios := ss, current := none } := by
  simp [settle, h]

/-- A line that a rule leaves ends what a feature holds. -/
theorem endedBy_of_leaves (h : r.feed l = .leaves) : Kind.rule.endedBy l.kind = true := by
  have accepted : ∀ r : RuleDraft, r.accept l = .leaves → Kind.rule.endedBy l.kind = true := by
    intro r h
    simp only [accept] at h
    split at h
    · cases h
    · cases h
    · cases h
    · split at h
      · assumption
      · cases h
  simp only [feed] at h
  split at h
  · exact accepted _ h
  · split at h
    · cases h
    · exact accepted _ h
    · cases h

/-- A rule that leaves a line may end. -/
theorem closeScenarios_of_leaves (h : r.feed l = .leaves) :
    ∃ ss, r.closeScenarios = .ok ss := by
  rcases hr : r.current with _ | s
  · exact ⟨_, closeScenarios_of_none hr⟩
  · simp only [feed, hr] at h
    cases hs : s.feed l with
    | takes s' => simp [hs] at h
    | rejects v => simp [hs] at h
    | leaves =>
      have closed := BlockDraft.close_of_leaves (ScenarioDraft.block_leaves hs)
      exact ⟨_, closeScenarios_of_some hr (ScenarioDraft.close_of_block closed)⟩

end RuleDraft

namespace FeatureDraft

variable {f : FeatureDraft}

theorem settle_of_opening (hp : f.part = .opening) : f.settle = .ok f := by
  simp [settle, hp]

theorem settle_of_background {b : BlockDraft} {c : Background} (hp : f.part = .background b)
    (h : b.closeBackground = .ok c) :
    f.settle = .ok { f with background := some c, part := .opening } := by
  simp [settle, hp, h, bind, Except.bind, pure, Except.pure]

theorem settle_of_open_background {b : BlockDraft} {v : Violation} (hp : f.part = .background b)
    (h : b.closeBackground = .error v) : f.settle = .error v := by
  simp [settle, hp, h, bind, Except.bind]

theorem settle_of_scenario {s : ScenarioDraft} {c : Scenario} (hp : f.part = .scenario s)
    (h : s.close = .ok c) : f.settle = .ok (f.addItem (.scenario c)) := by
  simp [settle, hp, h, bind, Except.bind, pure, Except.pure]

theorem settle_of_rule {r : RuleDraft} {c : Rule} (hp : f.part = .rule r)
    (h : r.close = .ok c) : f.settle = .ok (f.addItem (.rule c)) := by
  simp [settle, hp, h, bind, Except.bind, pure, Except.pure]

theorem settle_of_outline {o : OutlineDraft} {c : Outline} (hp : f.part = .outline o)
    (h : o.close = .ok c) : f.settle = .ok (f.addItem (.outline c)) := by
  simp [settle, hp, h, bind, Except.bind, pure, Except.pure]

theorem settle_of_open_scenario {s : ScenarioDraft} {v : Violation} (hp : f.part = .scenario s)
    (h : s.close = .error v) : f.settle = .error v := by
  simp [settle, hp, h, bind, Except.bind]

theorem settle_of_open_rule {r : RuleDraft} {v : Violation} (hp : f.part = .rule r)
    (h : r.close = .error v) : f.settle = .error v := by
  simp [settle, hp, h, bind, Except.bind]

theorem settle_of_open_outline {o : OutlineDraft} {v : Violation} (hp : f.part = .outline o)
    (h : o.close = .error v) : f.settle = .error v := by
  simp [settle, hp, h, bind, Except.bind]

/-- Settling moves the current part to the background or the items, if it may end. -/
inductive Settles (f : FeatureDraft) : FeatureDraft → Prop where
  | opening (h : f.part = .opening) : f.Settles f
  | background {b : BlockDraft} {c : Background} (h : f.part = .background b)
      (closed : b.closeBackground = .ok c) :
      f.Settles { f with background := some c, part := .opening }
  | scenario {s : ScenarioDraft} {c : Scenario} (h : f.part = .scenario s)
      (closed : s.close = .ok c) : f.Settles (f.addItem (.scenario c))
  | rule {r : RuleDraft} {c : Rule} (h : f.part = .rule r) (closed : r.close = .ok c) :
      f.Settles (f.addItem (.rule c))
  | outline {o : OutlineDraft} {c : Outline} (h : f.part = .outline o) (closed : o.close = .ok c) :
      f.Settles (f.addItem (.outline c))

theorem settles_of_settle {f' : FeatureDraft} (h : f.settle = .ok f') : f.Settles f' := by
  cases hp : f.part with
  | opening =>
    rw [settle_of_opening hp] at h
    cases h
    exact .opening hp
  | background b =>
    cases closed : b.closeBackground with
    | ok c =>
      rw [settle_of_background hp closed] at h
      cases h
      exact .background hp closed
    | error v => simp [settle_of_open_background hp closed] at h
  | scenario s =>
    cases closed : s.close with
    | ok c =>
      rw [settle_of_scenario hp closed] at h
      cases h
      exact .scenario hp closed
    | error v => simp [settle_of_open_scenario hp closed] at h
  | rule r =>
    cases closed : r.close with
    | ok c =>
      rw [settle_of_rule hp closed] at h
      cases h
      exact .rule hp closed
    | error v => simp [settle_of_open_rule hp closed] at h
  | outline o =>
    cases closed : o.close with
    | ok c =>
      rw [settle_of_outline hp closed] at h
      cases h
      exact .outline hp closed
    | error v => simp [settle_of_open_outline hp closed] at h

/-- A line that a part leaves ends what a feature holds. -/
theorem endedBy_of_part_leaves (begun : f.part ≠ .opening) {l : Line}
    (h : f.part.feed l = .leaves) : Kind.rule.endedBy l.kind = true := by
  cases hp : f.part with
  | opening => exact absurd hp begun
  | background b =>
    simp only [hp, Part.feed, Verdict.map_eq_leaves_iff] at h
    have ended := BlockDraft.endedBy_of_leaves h
    cases hk : l.kind <;> simp_all [Kind.endedBy]
  | scenario s =>
    simp only [hp, Part.feed, Verdict.map_eq_leaves_iff] at h
    have ended := BlockDraft.endedBy_of_leaves (ScenarioDraft.block_leaves h)
    cases hk : l.kind <;> simp_all [Kind.endedBy]
  | rule r =>
    simp only [hp, Part.feed, Verdict.map_eq_leaves_iff] at h
    exact RuleDraft.endedBy_of_leaves h
  | outline o =>
    simp only [hp, Part.feed, Verdict.map_eq_leaves_iff] at h
    exact OutlineDraft.endedBy_of_leaves h

end FeatureDraft

end Gherkin
