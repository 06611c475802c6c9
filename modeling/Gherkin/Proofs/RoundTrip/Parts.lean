import Gherkin.Proofs.RoundTrip.Steps

/-!
# Reading the pages of parts

What a block, a block of examples, an outline or a rule is when the lines of its page have been
read, and that it may end there: it then is what was written, read again.
-/

namespace Gherkin

open Text Page Verdict

variable {depth : Nat}

/-! ## Headers and their notes -/

/-- The lines of the notes below a header that is written at the depth. -/
def Header.notes (depth : Nat) (h : Header) : List Line :=
  lines (deepen (depth + 1)
    (h.comments.flatMap Comment.page ++ h.descriptions.flatMap Description.page))

theorem Header.lines_page {h : Header} {kind : Kind} {parts : Page} (title : kind.Carries h.title) :
    lines (deepen depth (h.page kind parts)) = kind.lineAt depth h.title ::
      (h.notes depth ++ lines (deepen (depth + 1) parts)) := by
  rw [Header.page, deepen_append, deepen_nested, lines_append, lines_keywordLine title,
    deepen_append, lines_append]
  rfl

/-- The notes below a header, where `f` says what an element is by its header. -/
theorem Header.run_notes {feed : α → Line → Verdict α} {kind : Kind} {h : Header}
    (carried : h.Carried kind) (f : Header → α)
    (comment : ∀ h l, l.kind = .comment → feed (f h) l = .takes (f (h.addComment l.comment)))
    (description : ∀ h l, l.kind = .description →
      feed (f h) l = .takes (f (h.addDescription l.description))) :
    run feed (f ⟨0, h.title, [], []⟩) (h.notes depth) = .takes (f (h.reread depth)) := by
  have comments : run feed (f ⟨0, h.title, [], []⟩)
      (lines (deepen (depth + 1) (h.comments.flatMap Comment.page))) =
      .takes (f ⟨0, h.title, [], h.comments.map Comment.unnumbered⟩) := by
    refine run_all (fun before => f ⟨0, h.title, [], before⟩) ?_
    intro c hc before
    exact run_line (Comment.lines_page (carried.comments c hc)) (comment _ _ rfl)
  rw [Header.notes, deepen_append, lines_append, run_append comments]
  refine run_all (fun before => f ⟨0, h.title, before, h.comments.map Comment.unnumbered⟩) ?_
  intro d hd before
  exact run_line (lines_free (carried.descriptions d hd)) (description _ _ rfl)

/-! ## Blocks -/

namespace BlockDraft

variable {own : Kind} {h : Header} {ss : List Step} {l : Line}

/-- The block of which some steps have been read, the last one being open. -/
def holding (h : Header) (ss : List Step) : BlockDraft :=
  match ss.getLast? with
  | none => ⟨h, [], none⟩
  | some s => ⟨h, ss.dropLast, some (.plain s)⟩

@[simp] theorem holding_nil : holding h [] = ⟨h, [], none⟩ := rfl

@[simp] theorem holding_snoc {s : Step} : holding h (ss ++ [s]) = ⟨h, ss, some (.plain s)⟩ := by
  simp [holding]

@[simp] theorem holding_header : (holding h ss).header = h := by
  rcases List.eq_nil_or_concat ss with rfl | ⟨ts, t, rfl⟩ <;> simp

theorem close_holding : (holding h ss).close = .ok ss := by
  rcases List.eq_nil_or_concat ss with rfl | ⟨ts, t, rfl⟩
  · rfl
  · rw [List.concat_eq_append, holding_snoc]
    rfl

theorem settle_holding : (holding h ss).settle = ⟨h, ss, none⟩ := by
  rcases List.eq_nil_or_concat ss with rfl | ⟨ts, t, rfl⟩
  · rfl
  · rw [List.concat_eq_append, holding_snoc]
    rfl

/-- A block that holds steps looks at a step line or a header on its own. -/
theorem feed_holding (kind : l.kind.category = .step ∨ l.kind.category = .container) :
    (holding h ss).feed own l = (⟨h, ss, none⟩ : BlockDraft).accept own l := by
  rcases List.eq_nil_or_concat ss with rfl | ⟨ts, t, rfl⟩
  · rfl
  · have left : StepDraft.feed (.plain t) l = .leaves := by
      rcases t with ⟨keyword, line, text, comments, _ | t | d⟩ <;>
        cases hk : l.kind <;> simp_all [StepDraft.feed, StepDraft.feedPlain, Kind.category]
    rw [List.concat_eq_append, holding_snoc]
    simp only [feed, left]
    rfl

theorem feed_holding_step {k : StepKeyword} (kind : l.kind = .step k) (holds : own.holds k = true) :
    (holding h ss).feed own l = .takes ⟨h, ss, some (.start k l)⟩ := by
  rw [feed_holding (.inl (by rw [kind]; rfl))]
  simp [accept, kind, holds]

theorem feed_holding_header (h : Header) (ss : List Step) (kind : own.endedBy l.kind = true) :
    (holding h ss).feed own l = .leaves := by
  have container : l.kind.category = .container := by
    cases hk : l.kind <;> simp_all [Kind.endedBy, Kind.category]
  rw [feed_holding (.inr container)]
  cases hk : l.kind <;> simp_all [accept, Kind.endedBy]

theorem run_step {s : Step} (carried : s.Carried) (holds : own.holds s.keyword = true) :
    run (feed own) (holding h ss) (lines (deepen depth s.page)) =
      .takes (holding h (ss ++ [s.reread])) := by
  let line := (Kind.step s.keyword).lineAt depth s.text
  have begun : (holding h ss).feed own line = .takes ⟨h, ss, some (.start s.keyword line)⟩ := by
    exact feed_holding_step rfl holds
  have inside : run (feed own)
      ⟨h, ss, some (.plain ⟨s.keyword, 0, s.text, [], none⟩)⟩ (lines (deepen (depth + 1)
        (s.comments.flatMap Comment.page ++ .ofOption Argument.page s.argument))) =
      .takes ⟨h, ss, some (.plain s.reread)⟩ := by
    refine run_map (fun d => (⟨h, ss, some d⟩ : BlockDraft)) ?_ (StepDraft.run_page carried)
    intro a l b taken
    simp [feed, taken]
  rw [Step.page, deepen_append, deepen_nested, lines_append, lines_keywordLine carried.text,
    List.singleton_append, run_cons begun, holding_snoc]
  exact inside

/-- A block takes the lines of its notes and its steps. -/
theorem run_page (own : Kind) (depth : Nat) {kind : Kind} {steps : List Step}
    (carried : h.Carried kind) (step : ∀ s ∈ steps, s.Carried)
    (holds : ∀ s ∈ steps, own.holds s.keyword = true) :
    run (feed own) ⟨⟨0, h.title, [], []⟩, [], none⟩
        (h.notes depth ++ lines (deepen (depth + 1) (steps.flatMap Step.page))) =
      .takes (holding (h.reread depth) (steps.map Step.reread)) := by
  have notes : run (feed own) ⟨⟨0, h.title, [], []⟩, [], none⟩ (h.notes depth) =
      .takes (holding (h.reread depth) []) := by
    refine Header.run_notes carried (fun h => (⟨h, [], none⟩ : BlockDraft)) ?_ ?_
    · intro h l hl
      simp [feed, accept, hl]
    · intro h l hl
      simp [feed, accept, hl]
  rw [run_append notes]
  apply run_all (fun before => holding (h.reread depth) before)
  intro s hs before
  exact run_step (step s hs) (holds s hs)

end BlockDraft

/-! ## Scenarios, examples and outlines -/

/-- The scenario of which all lines have been read. -/
def ScenarioDraft.complete (s : Scenario) : ScenarioDraft :=
  ⟨s.keyword, .holding s.header s.steps⟩

theorem ScenarioDraft.close_complete (s : Scenario) : (complete s).close = .ok s := by
  have closed : (complete s).close = .ok ⟨s.keyword, (complete s).block.header, s.steps⟩ := by
    exact close_of_block BlockDraft.close_holding
  simpa [complete] using closed

/-- The lines of the page of a scenario, its header apart. -/
theorem Scenario.lines_page {s : Scenario} (h : s.container.Carried) :
    lines (deepen depth s.page) =
      (Kind.scenario s.keyword).lineAt depth s.header.title ::
        (s.header.notes depth ++ lines (deepen (depth + 1) (s.steps.flatMap Step.page))) :=
  Header.lines_page h.header.title

theorem ScenarioDraft.run_page {s : Scenario} (h : s.container.Carried) :
    run feed ⟨s.keyword, ⟨⟨0, s.header.title, [], []⟩, [], none⟩⟩
        (s.header.notes depth ++ lines (deepen (depth + 1) (s.steps.flatMap Step.page))) =
      .takes (complete (Rewriting.reread.scenario depth s)) := by
  have holds : ∀ t ∈ s.steps, (Kind.scenario s.keyword).holds t.keyword = true := by
    intro t _
    cases t.keyword <;> rfl
  have inside := BlockDraft.run_page (.scenario s.keyword) depth h.header h.steps holds
  refine run_map (fun b => (⟨s.keyword, b⟩ : ScenarioDraft)) ?_ inside
  intro a l b taken
  simp [feed, taken, Verdict.map]

namespace ExamplesDraft

/-- The block of examples of which all lines have been read. -/
def complete (e : Examples) : ExamplesDraft :=
  ⟨e.keyword, e.header, match e.table with | none => .awaited | some t => .growing t⟩

theorem close_complete (e : Examples) : (complete e).close = e := by
  rcases e with ⟨keyword, header, _ | t⟩ <;> rfl

/-- The lines of the page of a block of examples. -/
theorem lines_page {e : Examples} (h : e.container.Carried) :
    lines (deepen 2 e.page) = (Kind.examples e.keyword).lineAt 2 e.header.title ::
      (e.header.notes 2 ++ lines (deepen 3 (.ofOption Table.page e.table))) :=
  Header.lines_page h.header.title

theorem run_page {e : Examples} (h : e.container.Carried) :
    run feed ⟨e.keyword, ⟨0, e.header.title, [], []⟩, .awaited⟩
        (e.header.notes 2 ++ lines (deepen 3 (.ofOption Table.page e.table))) =
      .takes (complete (Rewriting.reread.examples e)) := by
  have notes : run feed ⟨e.keyword, ⟨0, e.header.title, [], []⟩, .awaited⟩ (e.header.notes 2) =
      .takes ⟨e.keyword, e.header.reread 2, .awaited⟩ := by
    refine Header.run_notes h.header (fun g => (⟨e.keyword, g, .awaited⟩ : ExamplesDraft)) ?_ ?_
    · intro g l hl
      simp [feed, hl]
    · intro g l hl
      simp [feed, hl, TableDraft.settle]
  rw [run_append notes]
  cases ht : e.table with
  | none => simp [Page.ofOption, complete, Rewriting.examples, ht, Rewriting.reread]
  | some t =>
    have rows : run feed ⟨e.keyword, e.header.reread 2, .awaited⟩ (lines (deepen 3 t.page)) =
        .takes ⟨e.keyword, e.header.reread 2, .growing t.unnumbered⟩ := by
      refine Table.run_page (h.table t ht)
        (fun t => (⟨e.keyword, e.header.reread 2, .growing t⟩ : ExamplesDraft)) ?_ ?_ ?_
      · intro l hl
        simp [feed, hl]
      · intro t l hl
        simp [feed, hl]
      · intro t l hl
        simp [feed, hl]
    simpa [Page.ofOption, complete, Rewriting.examples, ht, Rewriting.reread] using rows

end ExamplesDraft

namespace OutlineDraft

/-- The outline of which all lines have been read. -/
def complete (o : Outline) : OutlineDraft :=
  ⟨o.keyword, ⟨o.header, o.steps, none⟩, some (.complete o.examples)⟩

theorem close_complete (o : Outline) : (complete o).close = .ok o := by
  have closed := close_of_some (o := complete o) (BlockDraft.close_of_none rfl) rfl
  simpa [complete, ExamplesDraft.close_complete] using closed

/-- An outline with its examples leaves every header that ends a rule. -/
theorem feed_complete {o : Outline} {l : Line} (kind : Kind.rule.endedBy l.kind = true) :
    (complete o).feed l = .leaves := by
  have left : (ExamplesDraft.complete o.examples).feed l = .leaves := by
    rcases o.examples with ⟨keyword, header, _ | t⟩ <;> cases hk : l.kind <;>
      simp_all [ExamplesDraft.complete, ExamplesDraft.feed, Kind.endedBy]
  simp only [feed, complete, left]
  cases hk : l.kind <;> simp_all [accept, Kind.endedBy]

/-- The lines of the page of an outline, its header apart. -/
def body (o : Outline) : List Line :=
  o.header.notes 1 ++ lines (deepen 2 (o.steps.flatMap Step.page ++ o.examples.page))

theorem run_body {o : Outline} (h : ∀ c ∈ (Item.outline o).containers, c.Carried) :
    run feed ⟨o.keyword, ⟨⟨0, o.header.title, [], []⟩, [], none⟩, none⟩ (body o) =
      .takes (complete (Rewriting.reread.outline o)) := by
  have own : (⟨.outline o.keyword, o.header, o.steps, none⟩ : Container).Carried := by
    exact h _ List.mem_cons_self
  have examples : o.examples.container.Carried := h _ (by simp [Item.containers])
  have steps : run feed ⟨o.keyword, ⟨⟨0, o.header.title, [], []⟩, [], none⟩, none⟩
        (o.header.notes 1 ++ lines (deepen 2 (o.steps.flatMap Step.page))) =
      .takes ⟨o.keyword, .holding (o.header.reread 1) (o.steps.map Step.reread), none⟩ := by
    have holds : ∀ t ∈ o.steps, (Kind.outline o.keyword).holds t.keyword = true := by
      intro t _
      cases t.keyword <;> rfl
    have inside := BlockDraft.run_page (.outline o.keyword) 1 own.header own.steps holds
    refine run_map (fun b => (⟨o.keyword, b, none⟩ : OutlineDraft)) ?_ inside
    intro a l b taken
    simp [feed, kind, taken]
  let line := (Kind.examples o.examples.keyword).lineAt 2 o.examples.header.title
  have begun : feed ⟨o.keyword, .holding (o.header.reread 1) (o.steps.map Step.reread), none⟩ line =
      .takes ⟨o.keyword, ⟨o.header.reread 1, o.steps.map Step.reread, none⟩,
        some ⟨o.examples.keyword, ⟨0, o.examples.header.title, [], []⟩, .awaited⟩⟩ := by
    have ended : (Kind.outline o.keyword).endedBy line.kind = true := rfl
    have left := BlockDraft.feed_holding_header (o.header.reread 1) (o.steps.map Step.reread) ended
    simp only [feed, kind, left]
    rw [accept, BlockDraft.settle_holding]
    rfl
  have rows : ∀ a l b, ExamplesDraft.feed a l = .takes b →
      feed ⟨o.keyword, ⟨o.header.reread 1, o.steps.map Step.reread, none⟩, some a⟩ l =
        .takes ⟨o.keyword, ⟨o.header.reread 1, o.steps.map Step.reread, none⟩, some b⟩ := by
    intro a l b taken
    simp [feed, taken]
  rw [body, deepen_append, lines_append, ← List.append_assoc, run_append steps,
    ExamplesDraft.lines_page examples, run_cons begun]
  exact run_map (fun e => (⟨o.keyword, ⟨o.header.reread 1, o.steps.map Step.reread, none⟩,
    some e⟩ : OutlineDraft)) rows (ExamplesDraft.run_page examples)

end OutlineDraft

/-! ## Rules -/

namespace RuleDraft

variable {h : Header} {ss : List Scenario} {l : Line}

/-- The rule of which some scenarios have been read, the last one being open. -/
def holding (h : Header) (ss : List Scenario) : RuleDraft :=
  match ss.getLast? with
  | none => ⟨h, [], none⟩
  | some s => ⟨h, ss.dropLast, some (.complete s)⟩

@[simp] theorem holding_snoc {s : Scenario} :
    holding h (ss ++ [s]) = ⟨h, ss, some (.complete s)⟩ := by
  simp [holding]

@[simp] theorem holding_header : (holding h ss).header = h := by
  rcases List.eq_nil_or_concat ss with rfl | ⟨ts, t, rfl⟩
  · rfl
  · rw [List.concat_eq_append, holding_snoc]

theorem closeScenarios_holding : (holding h ss).closeScenarios = .ok ss := by
  rcases List.eq_nil_or_concat ss with rfl | ⟨ts, t, rfl⟩
  · rfl
  · rw [List.concat_eq_append, holding_snoc]
    exact closeScenarios_of_some rfl (ScenarioDraft.close_complete t)

theorem close_holding : (holding h ss).close = .ok ⟨h, ss⟩ := by
  have closed : (holding h ss).close = .ok ⟨(holding h ss).header, ss⟩ := by
    exact close_of_closeScenarios closeScenarios_holding
  rwa [holding_header] at closed

/-- A rule that holds scenarios looks at a header on its own. -/
theorem feed_holding (kind : Kind.rule.endedBy l.kind = true) :
    (holding h ss).feed l = (⟨h, ss, none⟩ : RuleDraft).accept l := by
  rcases List.eq_nil_or_concat ss with rfl | ⟨ts, t, rfl⟩
  · rfl
  · have ended : (Kind.scenario t.keyword).endedBy l.kind = true := by
      cases hk : l.kind <;> simp_all [Kind.endedBy]
    have left : (ScenarioDraft.complete t).feed l = .leaves := by
      rw [ScenarioDraft.feed, Verdict.map_eq_leaves_iff]
      exact BlockDraft.feed_holding_header _ _ ended
    have closed := closeScenarios_of_some (r := ⟨h, ts, some (.complete t)⟩) rfl
      (ScenarioDraft.close_complete t)
    rw [List.concat_eq_append, holding_snoc]
    simp only [feed, left]
    rw [settle_of_closeScenarios closed]

theorem feed_holding_header (kind : Kind.rule.endedBy l.kind = true)
    (other : ∀ k, l.kind ≠ .scenario k) : (holding h ss).feed l = .leaves := by
  rw [feed_holding kind]
  cases hk : l.kind <;> simp_all [accept, Kind.endedBy]

/-- A scenario that a rule takes, whatever depth it is written at. -/
theorem run_scenario {s : Scenario} (carried : s.container.Carried) :
    run feed (holding h ss) (lines (deepen depth s.page)) =
      .takes (holding h (ss ++ [Rewriting.reread.scenario depth s])) := by
  let line := (Kind.scenario s.keyword).lineAt depth s.header.title
  have begun : (holding h ss).feed line = .takes ⟨h, ss, some (.start s.keyword line)⟩ := by
    rw [feed_holding rfl]
    rfl
  rw [Scenario.lines_page carried, run_cons begun, holding_snoc]
  refine run_map (fun c => (⟨h, ss, some c⟩ : RuleDraft)) ?_ (ScenarioDraft.run_page carried)
  intro a l b taken
  simp [feed, taken]

/-- A rule takes the lines of its notes and its scenarios. -/
theorem run_page {g : Rule} (carried : ∀ c ∈ (Item.rule g).containers, c.Carried) :
    run feed ⟨⟨0, g.header.title, [], []⟩, [], none⟩
        (g.header.notes 1 ++ lines (deepen 2 (g.scenarios.flatMap Scenario.page))) =
      .takes (holding (g.header.reread 1) (g.scenarios.map (Rewriting.reread.scenario 2))) := by
  have own : (⟨.rule, g.header, [], none⟩ : Container).Carried := carried _ List.mem_cons_self
  have notes : run feed ⟨⟨0, g.header.title, [], []⟩, [], none⟩ (g.header.notes 1) =
      .takes (holding (g.header.reread 1) []) := by
    refine Header.run_notes own.header (fun h => (⟨h, [], none⟩ : RuleDraft)) ?_ ?_
    · intro h l hl
      simp [feed, accept, hl]
    · intro h l hl
      simp [feed, accept, hl]
  rw [run_append notes]
  apply run_all (fun before => holding (g.header.reread 1) before)
  intro s hs before
  exact run_scenario (carried _ (by simp [Item.containers]; exact .inr ⟨s, hs, rfl⟩))

end RuleDraft

end Gherkin
