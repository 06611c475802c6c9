import Gherkin.Proofs.Grammar.Remainder

/-!
# The reader accepts the grammar

The remainder of a whole draft, built from the remainders of its parts. `Draft.feed` takes the
quotient of the remainder by the kind of the line, or the quotient is empty and the line a
violation. So a list of lines is a document if and only if its kinds are a word of the grammar.
-/

namespace Gherkin

open Computability Grammar

/-- What may still follow in the part. -/
def Part.rest : Part → Language Kind
  | .opening => notes
  | .background b => b.givenRest
  | .scenario s => s.block.rest StepKeyword.all
  | .rule r => r.rest
  | .outline o => o.rest

/-- The part is the background. -/
def Part.isBackground : Part → Bool
  | .background _ => true
  | _ => false

theorem Part.isBackground_of_takes {p p' : Part} {l : Line} (h : p.feed l = .takes p') :
    p'.isBackground = p.isBackground := by
  cases p with
  | opening => simp [feed] at h
  | _ => obtain ⟨a, -, rfl⟩ := Verdict.map_eq_takes_iff.1 h; rfl

theorem Verdict.rest_congr {rest : α → Language Kind} {m n : Language Kind} {v : Verdict α}
    (h : v = .leaves → m = n) : v.rest rest m = v.rest rest n := by
  cases v with
  | leaves => exact h rfl
  | _ => rfl

/-! An element may end if nothing has to follow in it. -/

theorem BlockDraft.nil_mem_rest_iff (ks : List StepKeyword) (b : BlockDraft) :
    [] ∈ b.rest ks ↔ ∃ steps, b.close = .ok steps := by
  rcases hb : b.current with _ | ⟨keyword, line, text, comments, _ | t | d⟩ | ⟨s, d⟩
  · simp [rest, hb, close_of_none hb, Language.nil_mem_kstar]
  · simp [rest, hb, close_of_plain hb, StepDraft.rest, Language.nil_mem_kstar]
  · simp [rest, hb, close_of_plain hb, StepDraft.rest, Language.nil_mem_kstar]
  · simp [rest, hb, close_of_plain hb, StepDraft.rest, Language.nil_mem_kstar]
  · simp [rest, hb, close_of_quoting hb, StepDraft.rest, fence]

theorem BlockDraft.nil_mem_givenRest_iff (b : BlockDraft) :
    [] ∈ b.givenRest ↔ ∃ c, b.closeBackground = .ok c := by
  by_cases has : b.hasStep = true
  · have now : b.givenRest = b.rest givens := by simp [givenRest, has]
    rw [now, b.nil_mem_rest_iff]
    rcases hb : b.current with _ | s | ⟨s, d⟩
    · have nonempty : b.steps ≠ [] := by simpa [hasStep, hb] using has
      simp [close_of_none hb, closeBackground_of_close (close_of_none hb) nonempty]
    · simp [close_of_plain hb, closeBackground_of_close (close_of_plain hb) (by simp)]
    · simp [close_of_quoting hb, closeBackground_of_open (close_of_quoting hb)]
  · have now : b.givenRest = givenBody := by simp [givenRest, has]
    obtain ⟨between, empty⟩ : b.current = none ∧ b.steps = [] := by simpa [hasStep] using has
    have closed : b.close = .ok [] := by rw [close_of_none between, empty]
    simp [now, closeBackground_of_empty closed]

theorem RuleDraft.nil_mem_rest_iff (r : RuleDraft) :
    [] ∈ r.rest ↔ ∃ rule, r.close = .ok rule := by
  rcases hr : r.current with _ | s
  · simp [rest, hr, notes, close_of_closeScenarios (closeScenarios_of_none hr),
      Language.nil_mem_kstar]
  · simp only [rest, hr, Language.nil_mem_mul_iff, Language.nil_mem_kstar, and_true]
    rw [s.block.nil_mem_rest_iff]
    cases h : s.block.close with
    | ok steps =>
      have closed := closeScenarios_of_some hr (ScenarioDraft.close_of_block h)
      simp [close_of_closeScenarios closed]
    | error v =>
      have unclosed := closeScenarios_of_open hr (ScenarioDraft.close_of_open_block h)
      simp [close_of_open unclosed]

theorem OutlineDraft.nil_mem_rest_iff (o : OutlineDraft) :
    [] ∈ o.rest ↔ ∃ outline, o.close = .ok outline := by
  rcases ho : o.examples with _ | ⟨keyword, header, table⟩
  · cases h : o.block.close with
    | ok steps => simp [rest, ho, Grammar.examples, close_of_none h ho]
    | error v => simp [rest, ho, Grammar.examples, close_of_open_block h]
  · cases h : o.block.close with
    | ok steps =>
      cases table <;>
        simp [rest, ho, h, ExamplesDraft.rest, notes, close_of_some h ho, Language.nil_mem_kstar]
    | error v => simp [rest, ho, h, close_of_open_block h]

namespace FeatureDraft

/-- The background of the feature has been read or is being read. -/
def hasBackground (f : FeatureDraft) : Bool :=
  f.background.isSome || f.part.isBackground

/-- What may follow the current part of the feature. -/
def remaining (f : FeatureDraft) : Language Kind :=
  if f.hasBackground then item∗ else Grammar.items

/-- What may still follow in the feature. -/
def rest (f : FeatureDraft) : Language Kind :=
  f.part.rest * f.remaining

theorem leftQuotient_remaining (f : FeatureDraft) (k : Kind) :
    f.remaining.leftQuotient [k] = match k with
      | .background => if f.hasBackground then 0 else givenBody * item∗
      | k => item.leftQuotient [k] * f.remaining := by
  by_cases h : f.hasBackground = true
  · have now : f.remaining = item∗ := by simp [remaining, h]
    rw [now, Language.leftQuotient_kstar]
    cases k <;> simp [h, leftQuotient_item]
  · have now : f.remaining = Grammar.items := by simp [remaining, h]
    rw [now, leftQuotient_items]
    cases k <;> simp [h]

theorem remaining_heads (f : FeatureDraft) : Heads f.remaining where
  step k := by simp [leftQuotient_remaining, leftQuotient_item]
  examples k := by simp [leftQuotient_remaining, leftQuotient_item]
  comment := by simp [leftQuotient_remaining, leftQuotient_item]
  row := by simp [leftQuotient_remaining, leftQuotient_item]
  fence k := by simp [leftQuotient_remaining, leftQuotient_item]
  description := by simp [leftQuotient_remaining, leftQuotient_item]

/-- The current part takes what may follow in it, and what it leaves may follow the part. -/
theorem rest_part {f : FeatureDraft} (begun : f.part ≠ .opening) (l : Line) :
    f.rest.leftQuotient [l.kind] = (f.part.feed l).rest (·.rest * f.remaining)
      (afterRead (fun _ => f.remaining.leftQuotient [l.kind]) f.settle) := by
  have heads := f.remaining_heads
  rw [rest]
  cases hp : f.part with
  | opening => exact absurd hp begun
  | background b =>
    rw [Part.rest, BlockDraft.givenRest_feed (heads.of_endedBy _), Part.feed, Verdict.rest_map]
    congr 1
    cases h : b.closeBackground with
    | ok c => simp [afterRead, settle_of_background hp h]
    | error v => simp [afterRead, settle_of_open_background hp h]
  | scenario s =>
    rw [Part.rest, BlockDraft.rest_feed (fun k => RuleDraft.mem_all k s.keyword)
      (heads.of_endedBy _), Part.feed, Verdict.rest_map, ScenarioDraft.feed, Verdict.rest_map]
    apply Verdict.rest_congr
    intro left
    have closed := ScenarioDraft.close_of_block (BlockDraft.close_of_leaves left)
    simp [afterRead, settle_of_scenario hp closed]
  | rule r =>
    rw [Part.rest, RuleDraft.rest_feed heads
      (by simp [leftQuotient_remaining, leftQuotient_item])
      (by simp [leftQuotient_remaining, leftQuotient_item]), Part.feed, Verdict.rest_map]
    apply Verdict.rest_congr
    intro left
    obtain ⟨ss, closed⟩ := RuleDraft.closeScenarios_of_leaves left
    simp [afterRead, settle_of_rule hp (RuleDraft.close_of_closeScenarios closed)]
  | outline o =>
    rw [Part.rest, OutlineDraft.rest_feed heads, Part.feed, Verdict.rest_map]
    congr 1
    cases h : o.close with
    | ok c => simp [afterRead, settle_of_outline hp h]
    | error v => simp [afterRead, settle_of_open_outline hp h]

/-- A line that no part takes is a note of the feature, right below its header, or begins the
next part. -/
theorem rest_accept {f : FeatureDraft} (between : f.part = .opening) (l : Line) :
    f.rest.leftQuotient [l.kind] = afterRead rest (f.accept l) := by
  have heads := f.remaining_heads
  have now : f.rest = notes * f.remaining := by simp [rest, between, Part.rest]
  have same : ∀ h : Header, ({ f with header := h } : FeatureDraft).rest = f.rest := fun _ => rfl
  have begins : ∀ p : Part, p.isBackground = false →
      ({ f with part := p } : FeatureDraft).rest = p.rest * f.remaining := by
    intro p hp
    simp only [rest, remaining, hasBackground, between, hp]
    rfl
  rw [now, leftQuotient_notes_mul]
  cases hk : l.kind with
  | description => simp [accept, hk, afterRead, same, now, heads.description]
  | comment => simp [accept, hk, afterRead, same, now, heads.comment]
  | background =>
    rw [leftQuotient_remaining]
    cases hb : f.background <;>
      simp [accept, hk, hb, afterRead, rest, remaining, hasBackground, between, Part.isBackground,
        Part.rest, BlockDraft.givenRest, BlockDraft.hasStep, BlockDraft.start]
  | scenario s =>
    cases s with
    | scenario =>
      simp only [accept, hk, afterRead, leftQuotient_remaining, leftQuotient_item]
      rw [begins _ rfl]
      rfl
    | example_ => simp [accept, hk, afterRead, leftQuotient_remaining, leftQuotient_item]
  | rule =>
    simp only [accept, hk, afterRead, leftQuotient_remaining, leftQuotient_item]
    rw [begins _ rfl]
    rfl
  | outline o =>
    simp only [accept, hk, afterRead, leftQuotient_remaining, leftQuotient_item]
    rw [begins _ rfl]
    rfl
  | _ => simp [accept, hk, afterRead, leftQuotient_remaining, leftQuotient_item]

/-- Settling the current part changes nothing about what may follow it. -/
theorem Settles.remaining_eq {f f' : FeatureDraft} (h : f.Settles f') :
    f'.part = .opening ∧ f'.remaining = f.remaining := by
  cases h with
  | opening h => exact ⟨h, rfl⟩
  | background h => exact ⟨rfl, by simp [remaining, hasBackground, h, Part.isBackground]⟩
  | scenario h =>
    exact ⟨rfl, by simp [remaining, hasBackground, h, Part.isBackground, addItem]⟩
  | rule h => exact ⟨rfl, by simp [remaining, hasBackground, h, Part.isBackground, addItem]⟩
  | outline h => exact ⟨rfl, by simp [remaining, hasBackground, h, Part.isBackground, addItem]⟩

/-- One more line takes the quotient of what may follow, or is a violation. -/
theorem rest_feed (f : FeatureDraft) (l : Line) :
    f.rest.leftQuotient [l.kind] = afterRead rest (f.feed l) := by
  by_cases hp : f.part = .opening
  · have fed : f.feed l = f.accept l := by
      simp [feed, hp, Part.feed, settle_of_opening hp, bind, Except.bind]
    rw [fed]
    exact rest_accept hp l
  · rw [rest_part hp]
    simp only [feed]
    cases h : f.part.feed l with
    | takes p =>
      have kept : p.isBackground = f.part.isBackground := by
        exact Part.isBackground_of_takes h
      simp [Verdict.rest, afterRead, rest, remaining, hasBackground, kept]
    | rejects v => rfl
    | leaves =>
      have ended := endedBy_of_part_leaves hp h
      rw [Verdict.rest, afterRead_bind]
      cases hs : f.settle with
      | error v => rfl
      | ok f' =>
        obtain ⟨between, same⟩ := (settles_of_settle hs).remaining_eq
        have skipped : f'.rest.leftQuotient [l.kind] = f'.remaining.leftQuotient [l.kind] := by
          rw [rest, between, Part.rest, leftQuotient_notes_mul]
          cases hk : l.kind <;> simp_all [Kind.endedBy]
        simp only [afterRead]
        rw [← same, ← skipped]
        exact rest_accept between l

/-- The feature may end if nothing has to follow. -/
theorem nil_mem_rest_iff (f : FeatureDraft) : [] ∈ f.rest ↔ ∃ feature, f.finish = .ok feature := by
  have finished : (∃ feature, f.finish = .ok feature) ↔ ∃ f', f.settle = .ok f' := by
    cases hf : f.settle <;> simp [finish, hf, bind, Except.bind, pure, Except.pure]
  have optional : [] ∈ f.remaining := by
    simp only [remaining]
    split <;> simp [Language.nil_mem_kstar]
  rw [finished, rest, Language.nil_mem_mul_iff, and_iff_left optional]
  cases hp : f.part with
  | opening => simp [Part.rest, notes, settle_of_opening hp, Language.nil_mem_kstar]
  | background b =>
    rw [Part.rest, b.nil_mem_givenRest_iff]
    cases h : b.closeBackground with
    | ok c => simp [settle_of_background hp h]
    | error v => simp [settle_of_open_background hp h]
  | scenario s =>
    rw [Part.rest, s.block.nil_mem_rest_iff]
    cases h : s.block.close with
    | ok steps => simp [settle_of_scenario hp (ScenarioDraft.close_of_block h)]
    | error v => simp [settle_of_open_scenario hp (ScenarioDraft.close_of_open_block h)]
  | rule r =>
    rw [Part.rest, r.nil_mem_rest_iff]
    cases h : r.close with
    | ok c => simp [settle_of_rule hp h]
    | error v => simp [settle_of_open_rule hp h]
  | outline o =>
    rw [Part.rest, o.nil_mem_rest_iff]
    cases h : o.close with
    | ok c => simp [settle_of_outline hp h]
    | error v => simp [settle_of_open_outline hp h]

end FeatureDraft

namespace Draft

/-- What may still follow in the document. -/
def rest : Draft → Language Kind
  | .preamble _ => document
  | .body _ f => f.rest

/-- One more line takes the quotient of what may follow, or is a violation. -/
theorem rest_feed (d : Draft) (l : Line) :
    d.rest.leftQuotient [l.kind] = afterRead rest (d.feed l) := by
  cases d with
  | preamble comments =>
    simp only [rest, document]
    rw [leftQuotient_kstar_mul]
    cases hk : l.kind <;>
      simp [feed, hk, afterRead, rest, document, comment, feature, FeatureDraft.rest,
        FeatureDraft.start, FeatureDraft.remaining, FeatureDraft.hasBackground, Part.isBackground,
        Part.rest]
  | body comments f =>
    rw [rest, FeatureDraft.rest_feed, feed, afterRead_bind]
    rfl

theorem nil_mem_rest_iff (d : Draft) : [] ∈ d.rest ↔ ∃ doc, d.finish = .ok doc := by
  cases d with
  | preamble comments => simp [rest, document, feature, finish]
  | body comments f =>
    rw [rest, f.nil_mem_rest_iff, finish]
    cases hf : f.finish <;> simp [bind, Except.bind, pure, Except.pure]

/-- A draft may be completed with lines if and only if their kinds may follow. -/
theorem completes_iff (d : Draft) (ls : List Line) :
    (∃ doc, (do (← d.feedAll ls).finish) = .ok doc) ↔ ls.map Line.kind ∈ d.rest := by
  induction ls generalizing d with
  | nil => exact (d.nil_mem_rest_iff).symm
  | cons l ls ih =>
    have step : l.kind :: ls.map Line.kind ∈ d.rest ↔
        ls.map Line.kind ∈ d.rest.leftQuotient [l.kind] := Iff.rfl
    rw [List.map_cons, step, d.rest_feed]
    cases hl : d.feed l with
    | ok d' => simpa [feedAll, hl, bind, Except.bind, afterRead] using ih d'
    | error v => simp [feedAll, hl, bind, Except.bind, afterRead]

end Draft

/-- **Acceptance.** Lines are a document if and only if their kinds are a word of the grammar, so
payloads, raw texts and line numbers have no part in it. -/
theorem Document.ofLines_isOk_iff (ls : List Line) :
    (∃ d, Document.ofLines ls = .ok d) ↔ ls.map Line.kind ∈ document :=
  Draft.empty.completes_iff ls

end Gherkin
