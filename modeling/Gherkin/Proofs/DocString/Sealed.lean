import Gherkin.Proofs.Violation.Naming

/-!
# Lines that only a DocString reads

Between two fences reading goes by the raw texts of the lines alone, and of a closing fence it
takes nothing but its form. A draft that has read an opening fence is in a DocString, whichever
elements are open around it, so two runs over lines that differ in what else such lines say stay
together (`Document.ofLines_eq_of_sameButQuoted`).
-/

namespace Gherkin

open Line

/-- Lines that are the same but for what a DocString does not look at: the kinds, payloads and
numbers of the lines in it, and all of its closing fence but the form. `inside` says that a
DocString is open before the first line. -/
inductive Line.SameButQuoted : (inside : Bool) → List Line → List Line → Prop where
  | nil {inside : Bool} : SameButQuoted inside [] []
  | plain {l : Line} {ls ms : List Line} (kind : ∀ f, l.kind ≠ .fence f)
      (rest : SameButQuoted false ls ms) : SameButQuoted false (l :: ls) (l :: ms)
  | opening {l : Line} {ls ms : List Line} {f : Fence} (kind : l.kind = .fence f)
      (rest : SameButQuoted true ls ms) : SameButQuoted false (l :: ls) (l :: ms)
  | quoted {l m : Line} {ls ms : List Line} (kind : ∀ f, l.kind ≠ .fence f)
      (kind' : ∀ f, m.kind ≠ .fence f) (raw : l.raw = m.raw) (rest : SameButQuoted true ls ms) :
      SameButQuoted true (l :: ls) (m :: ms)
  | closing {l m : Line} {ls ms : List Line} {f : Fence} (kind : l.kind = .fence f)
      (kind' : m.kind = .fence f) (rest : SameButQuoted false ls ms) :
      SameButQuoted true (l :: ls) (m :: ms)

/-- A DocString takes the two lines alike. -/
def Line.QuotedAlike (l m : Line) : Prop :=
  ∀ s d, StepDraft.feedQuoting s d l = StepDraft.feedQuoting s d m

variable {l m : Line} {ss : List Section} {s : Section} {quoted : List Line}

theorem Line.quotedAlike_of_raw (kind : ∀ f, l.kind ≠ .fence f) (kind' : ∀ f, m.kind ≠ .fence f)
    (raw : l.raw = m.raw) : l.QuotedAlike m := by
  have quoting : ∀ {n : Line}, (∀ f, n.kind ≠ .fence f) → ∀ s d,
      StepDraft.feedQuoting s d n = .quoting s (d.add n) := by
    intro n plain s d
    cases hk : n.kind <;> simp_all [StepDraft.feedQuoting]
  intro s d
  rw [quoting kind, quoting kind', DocDraft.add, DocDraft.add, raw]

theorem Line.quotedAlike_of_fence {f : Fence} (kind : l.kind = .fence f)
    (kind' : m.kind = .fence f) : l.QuotedAlike m := by
  intro s d
  simp only [StepDraft.feedQuoting, kind, kind']

/-! ## Elements in a DocString

An element in a DocString takes any line, and two lines that the DocString takes alike lead it to
the same state. -/

/-- A block of which lines behind its section have been read is in a DocString. -/
theorem BlockDraft.Reads.quoting {b : BlockDraft} (h : b.Reads s quoted) (inside : quoted ≠ []) :
    b.Quoting := by
  rcases h.state with ⟨-, -, -⟩ | ⟨current, -, -, reads⟩
  · exact absurd rfl inside
  · cases reads with
    | plain => exact absurd rfl inside
    | quoting => exact ⟨_, _, current⟩

theorem BlockDraft.Reads.takes_alike {b : BlockDraft} (h : b.Reads s quoted)
    (inside : quoted ≠ []) (alike : l.QuotedAlike m) (own : Kind) :
    ∃ b', b.feed own l = .takes b' ∧ b.feed own m = .takes b' := by
  obtain ⟨st, d, current⟩ := h.quoting inside
  refine ⟨{ b with current := some (StepDraft.feedQuoting st d m) }, ?_, ?_⟩
  · simp only [feed, current, StepDraft.feed, alike st d]
  · simp only [feed, current, StepDraft.feed]

theorem OutlineDraft.Reads.takes_alike {o : OutlineDraft} (h : o.Reads ss quoted)
    (inside : quoted ≠ []) (alike : l.QuotedAlike m) :
    ∃ o', o.feed l = .takes o' ∧ o.feed m = .takes o' := by
  cases h with
  | steps state kind reads =>
    obtain ⟨b, hl, hm⟩ := reads.takes_alike inside alike o.kind
    exact ⟨{ o with block := b }, by simp only [feed, state, hl], by simp only [feed, state, hm]⟩
  | examples => exact absurd rfl inside

theorem ScenarioDraft.takes_alike {c : ScenarioDraft} (h : c.block.Reads s quoted)
    (inside : quoted ≠ []) (alike : l.QuotedAlike m) :
    ∃ c', c.feed l = .takes c' ∧ c.feed m = .takes c' := by
  obtain ⟨b, hl, hm⟩ := h.takes_alike inside alike (.scenario c.keyword)
  exact ⟨{ c with block := b }, by rw [feed, hl]; rfl, by rw [feed, hm]; rfl⟩

theorem RuleDraft.Reads.takes_alike {r : RuleDraft} (h : r.Reads ss quoted)
    (inside : quoted ≠ []) (alike : l.QuotedAlike m) :
    ∃ r', r.feed l = .takes r' ∧ r.feed m = .takes r' := by
  cases h with
  | notes => exact absurd rfl inside
  | scenario state finished kind reads =>
    obtain ⟨c, hl, hm⟩ := ScenarioDraft.takes_alike reads inside alike
    exact ⟨{ r with current := some c }, by simp only [feed, state, hl],
      by simp only [feed, state, hm]⟩

theorem Part.Reads.takes_alike {p : Part} (h : p.Reads ss quoted) (inside : quoted ≠ [])
    (alike : l.QuotedAlike m) : ∃ p', p.feed l = .takes p' ∧ p.feed m = .takes p' := by
  cases h with
  | background kind reads =>
    obtain ⟨b, hl, hm⟩ := reads.takes_alike inside alike .background
    exact ⟨.background b, by rw [Part.feed, hl]; rfl, by rw [Part.feed, hm]; rfl⟩
  | scenario keyword kind reads =>
    obtain ⟨c, hl, hm⟩ := ScenarioDraft.takes_alike reads inside alike
    exact ⟨.scenario c, by rw [Part.feed, hl]; rfl, by rw [Part.feed, hm]; rfl⟩
  | rule reads =>
    obtain ⟨r, hl, hm⟩ := reads.takes_alike inside alike
    exact ⟨.rule r, by rw [Part.feed, hl]; rfl, by rw [Part.feed, hm]; rfl⟩
  | outline reads =>
    obtain ⟨o, hl, hm⟩ := reads.takes_alike inside alike
    exact ⟨.outline o, by rw [Part.feed, hl]; rfl, by rw [Part.feed, hm]; rfl⟩

theorem FeatureDraft.Reads.feed_alike {f : FeatureDraft} (h : f.Reads ss quoted)
    (inside : quoted ≠ []) (alike : l.QuotedAlike m) : f.feed l = f.feed m := by
  cases h with
  | opening => exact absurd rfl inside
  | part begun told reads =>
    obtain ⟨p, hl, hm⟩ := reads.takes_alike inside alike
    simp only [feed, hl, hm]

/-! ## Lines of a document -/

/-- Below an open fence a draft reads two lines alike if a DocString takes them alike. -/
theorem Draft.Reads.feed_alike {d : Draft} {read : List Line} (h : d.Reads read)
    (inside : (openFence? read).isSome) (alike : l.QuotedAlike m) : d.feed l = d.feed m := by
  cases h with
  | preamble comments =>
    have outside : openFence? read = none := foldl_fenceAfter (not_fence_of_comments comments)
    simp [outside] at inside
  | @body lead f ss quoted comments reads =>
    rw [(reads.cut comments).openFence?_eq] at inside
    have behind : quoted ≠ [] := by
      rintro rfl
      cases inside
    simp only [Draft.feed, reads.feed_alike behind alike]

theorem Line.openFence?_snoc {ls : List Line} :
    openFence? (ls ++ [l]) = fenceAfter (openFence? ls) l := by
  simp [openFence?]

/-- Two runs stay together if they read their first lines alike and then stay together. -/
theorem Draft.feedAll_cons_congr {d : Draft} {ls ms : List Line} (first : d.feed l = d.feed m)
    (rest : ∀ d', d.feed l = .ok d' → d'.feedAll ls = d'.feedAll ms) :
    d.feedAll (l :: ls) = d.feedAll (m :: ms) := by
  simp only [feedAll, ← first]
  cases fed : d.feed l with
  | error v => rfl
  | ok d' => exact rest d' fed

/-- Two runs stay together from any draft on of which it is known whether it is in a DocString. -/
theorem Draft.Reads.feedAll_eq {inside : Bool} {ls ms : List Line}
    (same : SameButQuoted inside ls ms) {d : Draft} {read : List Line} (h : d.Reads read)
    (state : (openFence? read).isSome = inside) : d.feedAll ls = d.feedAll ms := by
  induction same generalizing d read with
  | nil => rfl
  | plain kind rest ih =>
    refine feedAll_cons_congr rfl fun d' fed => ih (h.feed fed) ?_
    rw [openFence?_snoc, fenceAfter_of_not_fence kind, state]
  | opening kind rest ih =>
    refine feedAll_cons_congr rfl fun d' fed => ih (h.feed fed) ?_
    rw [Option.isSome_eq_false_iff, Option.isNone_iff_eq_none] at state
    rw [openFence?_snoc, state, fenceAfter_opening kind]
    rfl
  | quoted kind kind' raw rest ih =>
    have alike := h.feed_alike state (quotedAlike_of_raw kind kind' raw)
    refine feedAll_cons_congr alike fun d' fed => ih (h.feed fed) ?_
    rw [openFence?_snoc, fenceAfter_of_not_fence kind, state]
  | closing kind kind' rest ih =>
    have alike := h.feed_alike state (quotedAlike_of_fence kind kind')
    refine feedAll_cons_congr alike fun d' fed => ih (h.feed fed) ?_
    obtain ⟨f, opened⟩ := Option.isSome_iff_exists.1 state
    rw [openFence?_snoc, opened, fenceAfter_closing kind]
    rfl

/-- What else lines in DocStrings say is not read. -/
theorem Document.ofLines_eq_of_sameButQuoted {ls ms : List Line}
    (same : SameButQuoted false ls ms) : ofLines ls = ofLines ms := by
  have start : Draft.empty.Reads [] := Draft.reads_of_feedAll rfl
  rw [ofLines, ofLines, start.feedAll_eq same rfl]

end Gherkin
