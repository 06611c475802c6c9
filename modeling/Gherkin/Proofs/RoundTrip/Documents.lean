import Gherkin.Proofs.RoundTrip.OneLiners
import Gherkin.Proofs.RoundTrip.Parts

/-!
# Reading the pages of documents

The page of a document that was read is read again: the background first, then each item below the
ones before it, where a scenario right below a rule goes into the rule. So the page of every
document that was read is a document, and it is `Document.reread` up to the numbers of its lines
(`Document.exists_ofText_render`).
-/

namespace Gherkin

open Text Page Verdict

/-! ## Items -/

namespace Item

/-- The kind of the item's header. -/
def kind : Item → Kind
  | .scenario s => .scenario s.keyword
  | .rule _ => .rule
  | .outline o => .outline o.keyword

def header : Item → Header
  | .scenario s => s.header
  | .rule r => r.header
  | .outline o => o.header

/-- The lines of the item's page, its header apart. -/
def body : Item → List Line
  | .scenario s => s.header.notes 1 ++ lines (deepen 2 (s.steps.flatMap Step.page))
  | .rule r => r.header.notes 1 ++ lines (deepen 2 (r.scenarios.flatMap Scenario.page))
  | .outline o => OutlineDraft.body o

theorem lines_page {i : Item} (h : ∀ c ∈ i.containers, c.Carried) :
    lines (deepen 1 i.page) = i.kind.lineAt 1 i.header.title :: i.body := by
  cases i with
  | scenario s => exact Header.lines_page (h _ List.mem_cons_self).header.title
  | rule r => exact Header.lines_page (h _ List.mem_cons_self).header.title
  | outline o => exact Header.lines_page (h _ List.mem_cons_self).header.title

theorem absorb_of_apart {items : List Item} {i : Item}
    (h : ∀ j, items.getLast? = some j → j.Apart i) : absorb items i = items ++ [i] := by
  unfold absorb
  split
  · next r s last => exact absurd (h _ last) id
  · rfl

theorem absorb_snoc_rule {items : List Item} {r : Rule} {s : Scenario} :
    absorb (items ++ [.rule r]) (.scenario s) =
      items ++ [.rule { r with scenarios := r.scenarios ++ [s] }] := by
  simp [absorb]

/-- One more item stands below the others, or a scenario goes into the rule that is the last of
them. -/
theorem absorb_cases (before : List Item) (i : Item) :
    (∀ j, before.getLast? = some j → j.Apart i) ∨
      ∃ init r s, before = init ++ [.rule r] ∧ i = .scenario s := by
  by_cases apart : ∀ j, before.getLast? = some j → j.Apart i
  · exact .inl apart
  · right
    push Not at apart
    obtain ⟨j, last, together⟩ := apart
    cases j with
    | rule r =>
      cases i with
      | scenario s => exact ⟨_, r, s, (List.dropLast_append_getLast? _ last).symm, rfl⟩
      | rule r => exact absurd trivial together
      | outline o => exact absurd trivial together
    | scenario s => exact absurd trivial together
    | outline o => exact absurd trivial together

theorem apart_item {r : Rewriting} {i j : Item} : j.Apart (r.item i) ↔ j.Apart i := by
  cases i <;> cases j <;> rfl

end Item

namespace Part

/-- The part of a feature that has read the header of an item. -/
def begun : Item → Part
  | .scenario s => .scenario ⟨s.keyword, ⟨⟨0, s.header.title, [], []⟩, [], none⟩⟩
  | .rule r => .rule ⟨⟨0, r.header.title, [], []⟩, [], none⟩
  | .outline o => .outline ⟨o.keyword, ⟨⟨0, o.header.title, [], []⟩, [], none⟩, none⟩

/-- The part of a feature that has read all lines of an item. -/
def complete : Item → Part
  | .scenario s => .scenario (.complete s)
  | .rule r => .rule (.holding r.header r.scenarios)
  | .outline o => .outline (.complete o)

theorem run_body {i : Item} (h : ∀ c ∈ i.containers, c.Carried) :
    run feed (begun i) i.body = .takes (complete (Rewriting.reread.item i)) := by
  cases i with
  | scenario s =>
    refine run_map Part.scenario ?_ (ScenarioDraft.run_page (h _ List.mem_cons_self))
    intro a l b taken
    simp [feed, taken, Verdict.map]
  | rule r =>
    refine run_map Part.rule ?_ (RuleDraft.run_page h)
    intro a l b taken
    simp [feed, taken, Verdict.map]
  | outline o =>
    refine run_map Part.outline ?_ (OutlineDraft.run_body h)
    intro a l b taken
    simp [feed, taken, Verdict.map]

end Part

/-- The line takes no scenario into a rule that is the last item. -/
def Kind.FitsAfter (k : Kind) (items : List Item) : Prop :=
  ∀ r, items.getLast? = some (.rule r) → ∀ w, k ≠ .scenario w

namespace FeatureDraft

variable {f : FeatureDraft} {h : Header} {b : Option Background} {items : List Item} {l : Line}

/-- The feature has read all lines of its background, if it has one, and of the items. -/
structure Completes (f : FeatureDraft) (h : Header) (b : Option Background)
    (items : List Item) : Prop where
  settle : f.settle = .ok ⟨h, b, items, .opening⟩
  leaves : ∀ l : Line, Kind.rule.endedBy l.kind = true → l.kind.FitsAfter items →
    f.part.feed l = .leaves
  rule : ∀ r, items.getLast? = some (.rule r) →
    f = ⟨h, b, items.dropLast, .rule (.holding r.header r.scenarios)⟩

theorem completes_opening : (⟨h, none, [], .opening⟩ : FeatureDraft).Completes h none [] where
  settle := rfl
  leaves _ _ _ := rfl
  rule := by simp

theorem completes_background {c : Background} (nonempty : c.steps ≠ []) :
    (⟨h, none, [], .background (.holding c.header c.steps)⟩ : FeatureDraft).Completes h
      (some c) [] where
  settle := by
    have closed : (BlockDraft.holding c.header c.steps).closeBackground =
        .ok ⟨(BlockDraft.holding c.header c.steps).header, c.steps⟩ := by
      exact BlockDraft.closeBackground_of_close BlockDraft.close_holding nonempty
    rw [BlockDraft.holding_header] at closed
    rw [settle_of_background rfl closed]
  leaves l ended _ := by
    have left : Kind.background.endedBy l.kind = true := by
      cases hk : l.kind <;> simp_all [Kind.endedBy]
    rw [Part.feed, Verdict.map_eq_leaves_iff]
    exact BlockDraft.feed_holding_header _ _ left
  rule := by simp

/-- The feature right after the lines of an item. -/
theorem completes_item (i : Item) :
    (⟨h, b, items, Part.complete i⟩ : FeatureDraft).Completes h b (items ++ [i]) where
  settle := by
    cases i with
    | scenario s => rw [settle_of_scenario rfl (ScenarioDraft.close_complete s)]; rfl
    | rule r => rw [settle_of_rule rfl RuleDraft.close_holding]; rfl
    | outline o => rw [settle_of_outline rfl (OutlineDraft.close_complete o)]; rfl
  leaves l ended fits := by
    cases i with
    | scenario s =>
      have left : (Kind.scenario s.keyword).endedBy l.kind = true := by
        cases hk : l.kind <;> simp_all [Kind.endedBy]
      rw [Part.complete, Part.feed, Verdict.map_eq_leaves_iff, ScenarioDraft.feed,
        Verdict.map_eq_leaves_iff]
      exact BlockDraft.feed_holding_header _ _ left
    | rule r =>
      rw [Part.complete, Part.feed, Verdict.map_eq_leaves_iff]
      exact RuleDraft.feed_holding_header ended (fits r (by simp))
    | outline o =>
      rw [Part.complete, Part.feed, Verdict.map_eq_leaves_iff]
      exact OutlineDraft.feed_complete ended
  rule r last := by
    rw [List.getLast?_concat, Option.some.injEq] at last
    subst last
    simp [Part.complete]

/-- The feature looks at a header that its current part leaves. -/
theorem Completes.feed (done : f.Completes h b items) (ended : Kind.rule.endedBy l.kind = true)
    (fits : l.kind.FitsAfter items) :
    f.feed l = (⟨h, b, items, .opening⟩ : FeatureDraft).accept l := by
  simp only [FeatureDraft.feed, done.leaves l ended fits, done.settle]
  rfl

theorem accept_item {i : Item} (legal : (Entry.item i).Legal) :
    (⟨h, b, items, .opening⟩ : FeatureDraft).accept (i.kind.lineAt 1 i.header.title) =
      .ok ⟨h, b, items, Part.begun i⟩ := by
  cases i with
  | scenario s =>
    rcases s with ⟨keyword, header, steps⟩
    obtain rfl : keyword = .scenario := legal
    rfl
  | rule r => rfl
  | outline o => rfl

end FeatureDraft

/-! ## Features and documents -/

namespace Draft

variable {d e : Draft} {ls : List Line} {cs : List Comment} {f g : FeatureDraft}

/-- What a draft does with a line: it takes the line, or the line breaks the grammar. -/
def verdict (d : Draft) (l : Line) : Verdict Draft :=
  match d.feed l with
  | .ok e => .takes e
  | .error v => .rejects v

theorem feedAll_of_run (h : run verdict d ls = .takes e) : d.feedAll ls = .ok e := by
  induction ls generalizing d with
  | nil =>
    cases h
    rfl
  | cons l ls ih =>
    cases hl : d.feed l with
    | ok c =>
      rw [run_cons (by rw [verdict, hl])] at h
      rw [feedAll, hl]
      exact ih h
    | error v => simp [run, verdict, hl] at h

theorem verdict_body {l : Line} (h : f.feed l = .ok g) :
    verdict (.body cs f) l = .takes (.body cs g) := by
  rw [verdict, feed, h]
  rfl

/-- Lines that the part of a feature takes. -/
theorem run_part {p : Part} (h : run Part.feed f.part ls = .takes p) :
    run verdict (.body cs f) ls = .takes (.body cs { f with part := p }) := by
  refine run_map (fun p => Draft.body cs { f with part := p }) ?_ h
  intro a l b taken
  apply verdict_body
  simp [FeatureDraft.feed, taken]

/-- The lines of one more item. -/
theorem run_item (cs : List Comment) {h : Header} {b : Option Background} {items : List Item}
    {i : Item} (done : f.Completes h b items) (carried : (Entry.item i).Carried) :
    ∃ g, run verdict (.body cs f) (lines (deepen 1 i.page)) = .takes (.body cs g) ∧
      g.Completes h b (Item.absorb items (Rewriting.reread.item i)) := by
  have ended : Kind.rule.endedBy i.kind = true := by
    cases i <;> rfl
  rcases Item.absorb_cases items i with apart | ⟨before, r, s, rfl, rfl⟩
  · have fits : i.kind.FitsAfter items := by
      intro r last w hw
      cases i with
      | scenario s => exact apart _ last
      | rule r => cases hw
      | outline o => cases hw
    have begins : verdict (.body cs f) (i.kind.lineAt 1 i.header.title) =
        .takes (.body cs ⟨h, b, items, Part.begun i⟩) := by
      apply verdict_body
      rw [done.feed (l := i.kind.lineAt 1 i.header.title) ended fits]
      exact FeatureDraft.accept_item carried.legal
    have still : ∀ j, items.getLast? = some j → j.Apart (Rewriting.reread.item i) := by
      intro j last
      exact Item.apart_item.2 (apart j last)
    refine ⟨⟨h, b, items, Part.complete (Rewriting.reread.item i)⟩, ?_, ?_⟩
    · rw [Item.lines_page carried.containers, run_cons begins]
      exact run_part (Part.run_body carried.containers)
    · rw [Item.absorb_of_apart still]
      exact FeatureDraft.completes_item _
  · have inside := done.rule r (by simp)
    rw [List.dropLast_concat] at inside
    subst inside
    refine ⟨_, run_part (run_map Part.rule ?_ (RuleDraft.run_scenario
      (carried.containers _ List.mem_cons_self))), ?_⟩
    · intro a l b taken
      simp [Part.feed, taken, Verdict.map]
    · rw [Rewriting.item, Item.absorb_snoc_rule]
      exact FeatureDraft.completes_item
        (.rule { r with scenarios := r.scenarios ++ [Rewriting.reread.scenario 1 s] })

/-- The lines of the items. -/
theorem run_items (cs : List Comment) {h : Header} {b : Option Background} {items is : List Item}
    (done : f.Completes h b items) (carried : ∀ i ∈ is, (Entry.item i).Carried) :
    ∃ g, run verdict (.body cs f) (lines (deepen 1 (is.flatMap Item.page))) = .takes (.body cs g) ∧
      g.Completes h b ((is.map Rewriting.reread.item).foldl Item.absorb items) := by
  induction is generalizing f items with
  | nil => exact ⟨f, rfl, done⟩
  | cons i is ih =>
    obtain ⟨g, first, more⟩ := run_item cs done (carried i List.mem_cons_self)
    obtain ⟨g', rest, all⟩ := ih more fun j hj => carried j (List.mem_cons_of_mem i hj)
    refine ⟨g', ?_, all⟩
    rw [List.flatMap_cons, deepen_append, lines_append, run_append first, rest]

/-- The lines of the background, if there is one. -/
theorem run_background (cs : List Comment) {h : Header} {b : Option Background}
    (carried : ∀ c, b = some c → (Entry.background c).Carried) :
    ∃ g, run verdict (.body cs ⟨h, none, [], .opening⟩)
        (lines (deepen 1 (.ofOption Background.page b))) = .takes (.body cs g) ∧
      g.Completes h (b.map Rewriting.reread.background) [] := by
  cases b with
  | none => exact ⟨_, rfl, FeatureDraft.completes_opening⟩
  | some c =>
    obtain ⟨containers, nonempty, holds⟩ := carried c rfl
    have own : c.container.Carried := containers _ List.mem_cons_self
    have begins : verdict (.body cs ⟨h, none, [], .opening⟩)
        (Kind.background.lineAt 1 c.header.title) =
        .takes (.body cs ⟨h, none, [], .background ⟨⟨0, c.header.title, [], []⟩, [], none⟩⟩) := by
      exact verdict_body rfl
    have inside : run Part.feed (.background ⟨⟨0, c.header.title, [], []⟩, [], none⟩)
        (c.header.notes 1 ++ lines (deepen 2 (c.steps.flatMap Step.page))) =
        .takes (.background (.holding (c.header.reread 1) (c.steps.map Step.reread))) := by
      refine run_map Part.background ?_
        (BlockDraft.run_page .background 1 own.header own.steps holds)
      intro a l b taken
      simp [Part.feed, taken, Verdict.map]
    have whole : lines (deepen 1 c.page) = Kind.background.lineAt 1 c.header.title ::
        (c.header.notes 1 ++ lines (deepen 2 (c.steps.flatMap Step.page))) := by
      exact Header.lines_page own.header.title
    have steps : (Rewriting.reread.background c).steps ≠ [] := by
      simpa [Rewriting.background] using nonempty
    refine ⟨_, ?_, FeatureDraft.completes_background steps⟩
    rw [Page.ofOption, whole, run_cons begins]
    exact run_part inside

/-- The lines of the feature. -/
theorem run_feature (cs : List Comment) {feature : Feature}
    (header : feature.header.Carried .feature)
    (background : ∀ b, feature.background = some b → (Entry.background b).Carried)
    (items : ∀ i ∈ feature.items, (Entry.item i).Carried) :
    ∃ g, run verdict (.preamble cs) (lines feature.page) = .takes (.body cs g) ∧
      g.Completes (feature.header.reread 0) (feature.background.map Rewriting.reread.background)
        (Item.absorbAll (feature.items.map Rewriting.reread.item)) := by
  have begins : verdict (.preamble cs) (Kind.feature.lineAt 0 feature.header.title) =
      .takes (.body cs ⟨⟨0, feature.header.title, [], []⟩, none, [], .opening⟩) := rfl
  have notes : run verdict (.body cs ⟨⟨0, feature.header.title, [], []⟩, none, [], .opening⟩)
      (feature.header.notes 0) =
      .takes (.body cs ⟨feature.header.reread 0, none, [], .opening⟩) := by
    refine Header.run_notes header (fun h => Draft.body cs ⟨h, none, [], .opening⟩) ?_ ?_
    · intro h l hl
      apply verdict_body
      simp [FeatureDraft.feed, Part.feed, FeatureDraft.settle, FeatureDraft.accept, hl, bind,
        Except.bind]
    · intro h l hl
      apply verdict_body
      simp [FeatureDraft.feed, Part.feed, FeatureDraft.settle, FeatureDraft.accept, hl, bind,
        Except.bind]
  obtain ⟨f, first, begun⟩ := run_background cs (h := feature.header.reread 0) background
  obtain ⟨g, rest, done⟩ := run_items cs begun items
  refine ⟨g, ?_, done⟩
  have whole : lines feature.page = Kind.feature.lineAt 0 feature.header.title ::
      (feature.header.notes 0 ++ (lines (deepen 1 (.ofOption Background.page feature.background)) ++
        lines (deepen 1 (feature.items.flatMap Item.page)))) := by
    have page : lines (deepen 0 feature.page) = Kind.feature.lineAt 0 feature.header.title ::
        (feature.header.notes 0 ++ lines (deepen 1 (.ofOption Background.page feature.background ++
          feature.items.flatMap Item.page))) := by
      exact Header.lines_page header.title
    rw [deepen_zero, deepen_append, lines_append] at page
    exact page
  rw [whole, run_cons begins, run_append notes, run_append first, rest]

end Draft

/-- The page of a document that is carried is read as the document read again. -/
theorem Document.ofLines_page {d : Document} (h : d.Carried) :
    ofLines (lines d.page) = .ok d.reread := by
  have comments : run Draft.verdict (.preamble [])
      (lines (deepen 0 (d.comments.flatMap Comment.page))) =
      .takes (.preamble (d.comments.map Comment.unnumbered)) := by
    apply run_all Draft.preamble
    intro c hc before
    exact run_line (Comment.lines_page (h.comments c hc)) rfl
  rw [deepen_zero] at comments
  obtain ⟨g, feature, done⟩ := Draft.run_feature (d.comments.map Comment.unnumbered)
    h.header h.background h.items
  have fed : Draft.empty.feedAll (lines d.page) =
      .ok (.body (d.comments.map Comment.unnumbered) g) := by
    apply Draft.feedAll_of_run
    rw [Document.page, lines_append, Draft.empty, run_append comments, feature]
  rw [ofLines, fed]
  show (Draft.body (d.comments.map Comment.unnumbered) g).finish = _
  rw [Draft.finish, FeatureDraft.finish, done.settle]
  rfl

/-- **Reading again.** The canonical text of a document that was read is read as the document read
again, up to the numbers of its lines. -/
theorem Document.exists_ofText_render {d : Document} (h : d.Carried) :
    ∃ d', ofText d.render = .ok d' ∧ d'.renumber (fun _ => 0) = d.reread := by
  have unnumbered := ofLines_renumber (f := fun _ => 0) (Line.ofText d.render)
  rw [Document.render, ofText_text h.oneLiners, ofLines_page h] at unnumbered
  rw [Document.render, ofText]
  cases read : ofLines (Line.ofText d.page.text) with
  | error v => simp [read, renumbered] at unnumbered
  | ok d' =>
    simp only [read, renumbered, Except.ok.injEq] at unnumbered
    exact ⟨d', rfl, unnumbered.symm⟩

end Gherkin
