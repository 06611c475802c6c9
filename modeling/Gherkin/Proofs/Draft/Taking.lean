import Gherkin.Proofs.Draft.Leaving

/-!
# Elements that take a line

Each relation `Takes` lists what an element may become by a line that it takes, with the state it
is in and the kind of the line in every case; the theorems after it say that the list is complete.
What holds of every draft is proved case by case from these lists.
-/

namespace Gherkin

/-- What a step outside of a DocString becomes by a line that it takes. -/
inductive Step.Takes (s : Step) (l : Line) : StepDraft → Prop where
  | tableComment {t : Table} (kind : l.kind = .comment) (held : s.argument = some (.table t)) :
      s.Takes l (.plain { s with argument := some (.table (t.addComment l.comment)) })
  | comment (kind : l.kind = .comment) (held : ∀ t, s.argument ≠ some (.table t)) :
      s.Takes l (.plain (s.addComment l.comment))
  | firstRow (kind : l.kind = .row) (held : s.argument = none) :
      s.Takes l (.plain { s with argument := some (.table (.start l)) })
  | row {t : Table} (kind : l.kind = .row) (held : s.argument = some (.table t)) :
      s.Takes l (.plain { s with argument := some (.table (t.addRow l.row)) })
  | fence {f : Fence} (kind : l.kind = .fence f) (held : s.argument = none) :
      s.Takes l (.quoting s (.start f l))

namespace StepDraft

variable {s : Step} {l : Line}

theorem takes_of_feedPlain {d : StepDraft} (h : feedPlain s l = .takes d) : s.Takes l d := by
  rcases s with ⟨keyword, line, text, comments, _ | t | doc⟩ <;>
    cases hk : l.kind <;> simp only [feedPlain, hk, Verdict.takes.injEq, reduceCtorEq] at h
  all_goals subst h
  · exact .comment hk (by simp)
  · exact .firstRow hk rfl
  · exact .fence hk rfl
  · exact .tableComment hk rfl
  · exact .row hk rfl
  · exact .comment hk (by simp)

/-- A step leaves no comment and no data. -/
theorem category_of_feedPlain_leaves (h : feedPlain s l = .leaves) :
    l.kind.category ≠ .comment ∧ l.kind.category ≠ .data := by
  rcases s with ⟨keyword, line, text, comments, _ | t | doc⟩ <;>
    cases hk : l.kind <;> simp_all [feedPlain, Kind.category]

end StepDraft

/-- The lines go into a DocString of the block. -/
def BlockDraft.Quoting (b : BlockDraft) : Prop :=
  ∃ s d, b.current = some (.quoting s d)

/-- What a block becomes by a line that it takes. -/
inductive BlockDraft.Takes (own : Kind) (b : BlockDraft) (l : Line) : BlockDraft → Prop where
  | description (kind : l.kind = .description) (state : ¬ b.Quoting) :
      b.Takes own l { b.settle with header := b.header.addDescription l.description }
  | comment (kind : l.kind = .comment) (state : b.current = none) :
      b.Takes own l { b with header := b.header.addComment l.comment }
  | step {k : StepKeyword} (kind : l.kind = .step k) (holds : own.holds k = true)
      (state : ¬ b.Quoting) : b.Takes own l { b.settle with current := some (.start k l) }
  | following {s : Step} {d : StepDraft} (state : b.current = some (.plain s))
      (takes : s.Takes l d) : b.Takes own l { b with current := some d }
  | quoted {s : Step} {d : DocDraft} (state : b.current = some (.quoting s d)) :
      b.Takes own l { b with current := some (StepDraft.feedQuoting s d l) }

namespace BlockDraft

variable {own : Kind} {b b' : BlockDraft} {l : Line}

theorem settle_of_none (h : b.current = none) : b.settle = b := by
  simp [settle, h]

theorem settle_of_plain {s : Step} (h : b.current = some (.plain s)) :
    b.settle = { b with steps := b.steps ++ [s], current := none } := by
  simp [settle, h]

@[simp] theorem settle_header : b.settle.header = b.header := by
  rcases hb : b.current with _ | s | ⟨s, d⟩ <;> simp [settle, hb]

/-- A line that a block takes and none of its steps does: a note or a step line. -/
theorem takes_of_accept (state : ¬ b.Quoting)
    (comments : l.kind = .comment → b.current = none)
    (h : b.settle.accept own l = .takes b') : b.Takes own l b' := by
  simp only [accept] at h
  split at h
  · next hk =>
    cases h
    have taken : b.Takes own l _ := .description hk state
    simpa using taken
  · next hk =>
    cases h
    have between := comments hk
    rw [settle_of_none between]
    exact .comment hk between
  · next k hk =>
    split at h
    · next holds =>
      cases h
      exact .step hk holds state
    · cases h
  · split at h <;> cases h

theorem takes_of_feed (h : b.feed own l = .takes b') : b.Takes own l b' := by
  simp only [feed] at h
  rcases hb : b.current with _ | s | ⟨s, d⟩ <;> simp only [hb] at h
  · apply takes_of_accept (by simp [Quoting, hb]) (fun _ => hb)
    rwa [settle_of_none hb]
  · simp only [StepDraft.feed] at h
    split at h
    · next d hd =>
      cases h
      exact .following hb (StepDraft.takes_of_feedPlain hd)
    · next left =>
      refine takes_of_accept (by simp [Quoting, hb]) ?_ h
      intro hk
      exact absurd (by rw [hk]; rfl) (StepDraft.category_of_feedPlain_leaves left).1
    · cases h
  · simp only [StepDraft.feed, Verdict.takes.injEq] at h
    subst h
    exact .quoted hb

end BlockDraft

/-- What a block of examples becomes by a line that it takes. -/
inductive ExamplesDraft.Takes (e : ExamplesDraft) (l : Line) : ExamplesDraft → Prop where
  | description (kind : l.kind = .description) :
      e.Takes l { e with header := e.header.addDescription l.description, table := e.table.settle }
  | tableComment {t : Table} (kind : l.kind = .comment) (held : e.table = .growing t) :
      e.Takes l { e with table := .growing (t.addComment l.comment) }
  | comment (kind : l.kind = .comment) (held : ∀ t, e.table ≠ .growing t) :
      e.Takes l { e with header := e.header.addComment l.comment }
  | firstRow (kind : l.kind = .row) (held : e.table = .awaited) :
      e.Takes l { e with table := .growing (.start l) }
  | row {t : Table} (kind : l.kind = .row) (held : e.table = .growing t) :
      e.Takes l { e with table := .growing (t.addRow l.row) }

theorem ExamplesDraft.takes_of_feed {e e' : ExamplesDraft} {l : Line}
    (h : e.feed l = .takes e') : e.Takes l e' := by
  rcases e with ⟨keyword, header, _ | t | t⟩ <;>
    cases hk : l.kind <;> simp only [feed, hk, Kind.endedBy, kind, Verdict.takes.injEq,
      reduceCtorEq, if_true, if_false, Bool.false_eq_true] at h
  all_goals subst h
  · exact .comment hk (by simp)
  · exact .firstRow hk rfl
  · exact .description hk
  · exact .tableComment hk rfl
  · exact .row hk rfl
  · exact .description hk
  · exact .comment hk (by simp)
  · exact .description hk

/-- What an outline becomes by a line that it takes. -/
inductive OutlineDraft.Takes (o : OutlineDraft) (l : Line) : OutlineDraft → Prop where
  | block {b : BlockDraft} (state : o.examples = none) (takes : o.block.Takes o.kind l b) :
      o.Takes l { o with block := b }
  | header {k : ExamplesKeyword} (kind : l.kind = .examples k) (state : o.examples = none)
      (left : o.block.feed o.kind l = .leaves) :
      o.Takes l { o with block := o.block.settle, examples := some (.start k l) }
  | examples {e e' : ExamplesDraft} (state : o.examples = some e) (takes : e.Takes l e') :
      o.Takes l { o with examples := some e' }

theorem OutlineDraft.takes_of_feed {o o' : OutlineDraft} {l : Line}
    (h : o.feed l = .takes o') : o.Takes l o' := by
  rcases ho : o.examples with _ | e <;> simp only [feed, ho] at h
  · split at h
    · next b hb =>
      cases h
      rw [← ho]
      exact .block ho (BlockDraft.takes_of_feed hb)
    · next left =>
      cases hk : l.kind <;> simp only [accept, hk, ho, Verdict.takes.injEq, reduceCtorEq] at h
      subst h
      exact .header hk ho left
    · cases h
  · split at h
    · next e' he =>
      cases h
      exact .examples ho (ExamplesDraft.takes_of_feed he)
    · cases hk : l.kind <;> simp [accept, hk, ho] at h
    · cases h

/-- What a rule becomes by a line that it takes. -/
inductive RuleDraft.Takes (r : RuleDraft) (l : Line) : RuleDraft → Prop where
  | description (kind : l.kind = .description) (state : r.current = none) :
      r.Takes l { r with header := r.header.addDescription l.description }
  | comment (kind : l.kind = .comment) (state : r.current = none) :
      r.Takes l { r with header := r.header.addComment l.comment }
  | header {k : ScenarioKeyword} {ss : List Scenario} (kind : l.kind = .scenario k)
      (closed : r.closeScenarios = .ok ss) :
      r.Takes l { r with scenarios := ss, current := some (.start k l) }
  | scenario {s : ScenarioDraft} {b : BlockDraft} (state : r.current = some s)
      (takes : s.block.Takes (.scenario s.keyword) l b) :
      r.Takes l { r with current := some { s with block := b } }

theorem RuleDraft.takes_of_feed {r r' : RuleDraft} {l : Line} (h : r.feed l = .takes r') :
    r.Takes l r' := by
  rcases hr : r.current with _ | s <;> simp only [feed, hr] at h
  · cases hk : l.kind <;>
      simp only [accept, hk, Kind.endedBy, if_true, if_false, Verdict.takes.injEq, reduceCtorEq,
        Bool.false_eq_true] at h
    all_goals subst h
    · exact .header hk (closeScenarios_of_none hr)
    · simpa [hr] using Takes.comment hk hr
    · simpa [hr] using Takes.description hk hr
  · split at h
    · next s' hs =>
      cases h
      obtain ⟨b, hb, rfl⟩ := Verdict.map_eq_takes_iff.1 hs
      exact .scenario hr (BlockDraft.takes_of_feed hb)
    · next left =>
      have inner := ScenarioDraft.block_leaves left
      have ended := BlockDraft.endedBy_of_leaves inner
      have closed := closeScenarios_of_some hr
        (ScenarioDraft.close_of_block (BlockDraft.close_of_leaves inner))
      rw [settle_of_closeScenarios closed] at h
      cases hk : l.kind <;> simp only [hk, Kind.endedBy, reduceCtorEq] at ended <;>
        simp only [accept, hk, Kind.endedBy, if_true, Verdict.takes.injEq, reduceCtorEq] at h
      subst h
      exact .header hk closed
    · cases h

/-- The part that a header line begins in a feature. -/
inductive Part.Begins (l : Line) : Part → Prop where
  | background (kind : l.kind = .background) : Begins l (.background (.start l))
  | scenario (kind : l.kind = .scenario .scenario) : Begins l (.scenario (.start .scenario l))
  | rule (kind : l.kind = .rule) : Begins l (.rule (.start l))
  | outline {k : OutlineKeyword} (kind : l.kind = .outline k) : Begins l (.outline (.start k l))

/-- What a feature becomes by a line that it reads. -/
inductive FeatureDraft.Takes (f : FeatureDraft) (l : Line) : FeatureDraft → Prop where
  | description (kind : l.kind = .description) (state : f.part = .opening) :
      f.Takes l { f with header := f.header.addDescription l.description }
  | comment (kind : l.kind = .comment) (state : f.part = .opening) :
      f.Takes l { f with header := f.header.addComment l.comment }
  | part {p : Part} (takes : f.part.feed l = .takes p) : f.Takes l { f with part := p }
  | header {g : FeatureDraft} {p : Part} (left : f.part.feed l = .leaves) (settled : f.Settles g)
      (begins : p.Begins l) (single : l.kind = .background → g.background = none) :
      f.Takes l { g with part := p }

namespace FeatureDraft

variable {f g : FeatureDraft} {l : Line}

/-- A line that no part takes is a note right below the header of the feature, or begins a part. -/
theorem takes_of_accept (left : f.part.feed l = .leaves) {s : FeatureDraft} (settled : f.Settles s)
    (h : s.accept l = .ok g) : f.Takes l g := by
  have opening : l.kind.category ≠ .container → f.part = .opening ∧ s = f := by
    intro outer
    by_cases hp : f.part = .opening
    · cases settled <;> simp_all
    · have ended := endedBy_of_part_leaves hp left
      cases hk : l.kind <;> simp_all [Kind.endedBy, Kind.category]
  cases hk : l.kind <;> simp only [accept, hk, Except.ok.injEq, reduceCtorEq] at h
  case background =>
    cases hb : s.background <;> simp only [hb, Except.ok.injEq, reduceCtorEq] at h
    subst h
    rw [← hb]
    exact .header left settled (.background hk) fun _ => hb
  case rule =>
    subst h
    exact .header left settled (.rule hk) (by simp [hk])
  case scenario k =>
    cases k <;> simp only [Except.ok.injEq, reduceCtorEq] at h
    subst h
    exact .header left settled (.scenario hk) (by simp [hk])
  case outline k =>
    subst h
    exact .header left settled (.outline hk) (by simp [hk])
  case comment =>
    subst h
    obtain ⟨hp, rfl⟩ := opening (by simp [hk, Kind.category])
    exact .comment hk hp
  case description =>
    subst h
    obtain ⟨hp, rfl⟩ := opening (by simp [hk, Kind.category])
    exact .description hk hp

theorem takes_of_feed (h : f.feed l = .ok g) : f.Takes l g := by
  simp only [feed] at h
  cases hp : f.part.feed l with
  | takes p =>
    simp only [hp, Except.ok.injEq] at h
    subst h
    exact .part hp
  | rejects v => simp [hp] at h
  | leaves =>
    simp only [hp] at h
    cases hs : f.settle with
    | error v => simp [hs, bind, Except.bind] at h
    | ok s =>
      simp only [hs, bind, Except.bind] at h
      exact takes_of_accept hp (settles_of_settle hs) h

end FeatureDraft

end Gherkin
