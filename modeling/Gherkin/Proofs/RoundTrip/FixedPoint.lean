import Gherkin.Proofs.Page.Extent
import Gherkin.Proofs.RoundTrip.Exactness

/-!
# When the canonical text is a fixed point

The canonical text of a document, read and written again, is the same text if and only if the tree
came back exactly (`Document.render_again_iff`). A tree that comes back exactly is written alike.
Conversely, a carriage return that is lost is missing in the text, as nothing else drops one; and a
scenario that goes into a rule is written one level deeper, which makes the text longer.
-/

namespace Gherkin

open Text Page

/-! ## Carriage returns -/

theorem Text.count_chomp (cs : List Char) : (chomp cs).count '\r' ≤ cs.count '\r' ∧
    ((chomp cs).count '\r' = cs.count '\r' → chomp cs = cs) := by
  rcases chomp_eq_self_or cs with ⟨same, -⟩ | cut
  · rw [same]
    exact ⟨Nat.le_refl _, fun _ => rfl⟩
  · have one : cs.count '\r' = (chomp cs).count '\r' + 1 := by
      conv_lhs => rw [cut]
      simp
    refine ⟨by omega, fun same => ?_⟩
    omega

/-- Reading a DocString again loses its carriage returns at the ends of lines, and no others. -/
theorem DocString.returns_reread (d : DocString) :
    returns d.reread.page ≤ returns (d.renumber fun _ => 0).page ∧
      (returns d.reread.page = returns (d.renumber fun _ => 0).page →
        ∀ l ∈ d.lines, l.toList.getLast? ≠ some '\r') := by
  let again (l : String) : Page := .line (.ofList (chomp l.toList))
  have line : ∀ l : String, returns (Page.line l) = l.toList.count '\r' := by
    intro l
    simp [returns, Page.line]
  have each : ∀ l : String, returns (again l) = (chomp l.toList).count '\r' := by
    intro l
    rw [line, String.toList_ofList]
  have less : ∀ l ∈ d.lines, returns (again l) ≤ returns (Page.line l) := by
    intro l _
    rw [each, line]
    exact (count_chomp l.toList).1
  obtain ⟨least, equal⟩ := returns_flatMap_le less
  have first : d.reread.page = .keywordLine (.fence d.opening) (d.contentType.getD "") ++
      d.lines.flatMap again ++ .line d.closing.text := by
    rw [page, reread, List.flatMap_map]
  have second : (d.renumber fun _ => 0).page =
      .keywordLine (.fence d.opening) (d.contentType.getD "") ++
        d.lines.flatMap Page.line ++ .line d.closing.text := rfl
  rw [first, second]
  simp only [returns_append]
  refine ⟨by omega, fun same l hl => ?_⟩
  have kept := equal (by omega) l hl
  rw [each, line] at kept
  exact chomp_eq_self_iff.1 ((count_chomp l.toList).2 kept)

theorem Step.returns_reread (s : Step) : returns s.reread.page ≤ returns s.unnumbered.page ∧
    (returns s.reread.page = returns s.unnumbered.page → s.WithoutReturns) := by
  rcases s with ⟨keyword, line, text, comments, _ | t | d⟩
  · exact ⟨Nat.le_refl _, fun _ => by simp [WithoutReturns]⟩
  · exact ⟨Nat.le_refl _, fun _ => by simp [WithoutReturns]⟩
  · obtain ⟨le, exact_⟩ := d.returns_reread
    have first : returns (reread ⟨keyword, line, text, comments, some (.docString d)⟩).page =
        returns (.keywordLine (.step keyword) text) +
          (returns ((comments.map Comment.unnumbered).flatMap Comment.page) +
            returns d.reread.page) := by
      simp only [Step.page, returns_append, returns_nested]
      rfl
    have second : returns (unnumbered ⟨keyword, line, text, comments, some (.docString d)⟩).page =
        returns (.keywordLine (.step keyword) text) +
          (returns ((comments.map Comment.unnumbered).flatMap Comment.page) +
            returns (d.renumber fun _ => 0).page) := by
      simp only [Step.page, returns_append, returns_nested]
      rfl
    rw [first, second]
    refine ⟨by omega, fun same e he => ?_⟩
    obtain rfl : d = e := by simpa using he
    exact exact_ (by omega)

/-! ## Carriage returns outside steps -/

/-- The carriage returns of a header with its notes are apart from those below. -/
theorem Header.returns_page (h : Header) (kind : Kind) (parts : Page) :
    returns (h.page kind parts) = returns (h.page kind []) + returns parts := by
  simp only [page, returns_append, returns_nested, returns_nil]
  omega

namespace Rewriting

variable {r : Rewriting} {g : Step → Step}

/-- The carriage returns in the steps of a list, each changed by `g`. -/
def stepReturns (g : Step → Step) (steps : List Step) : Nat :=
  returns ((steps.map g).flatMap Step.page)

theorem stepReturns_append {steps more : List Step} :
    stepReturns g (steps ++ more) = stepReturns g steps + stepReturns g more := by
  simp [stepReturns]

/-- If the carriage returns outside the steps of each part do not change, neither do those outside
the steps of all parts. -/
theorem exists_returns_flatMap {page : (Step → Step) → α → Page} {steps : α → List Step}
    {xs : List α} (each : ∀ x ∈ xs, ∃ c, ∀ g, returns (page g x) = c + stepReturns g (steps x)) :
    ∃ c, ∀ g, returns (xs.flatMap (page g)) = c + stepReturns g (xs.flatMap steps) := by
  induction xs with
  | nil => exact ⟨0, fun g => rfl⟩
  | cons x xs ih =>
    obtain ⟨c, first⟩ := each x List.mem_cons_self
    obtain ⟨c', rest⟩ := ih fun y hy => each y (List.mem_cons_of_mem x hy)
    refine ⟨c + c', fun g => ?_⟩
    rw [List.flatMap_cons, List.flatMap_cons, returns_append, stepReturns_append, first, rest]
    omega

theorem returns_scenario (depth : Nat) (s : Scenario) :
    ∃ c, ∀ g, returns ((r.withStep g).scenario depth s).page = c + stepReturns g s.steps :=
  ⟨returns ((r.header depth s.header).page (.scenario s.keyword) []), fun _ =>
    Header.returns_page _ _ _⟩

theorem returns_rule (q : Rule) :
    ∃ c, ∀ g, returns ((r.withStep g).rule q).page =
      c + stepReturns g (q.scenarios.flatMap Scenario.steps) := by
  obtain ⟨c, scenarios⟩ := exists_returns_flatMap fun s (_ : s ∈ q.scenarios) =>
    returns_scenario (r := r) 2 s
  refine ⟨returns ((r.header 1 q.header).page .rule []) + c, fun g => ?_⟩
  have page : ((r.withStep g).rule q).page = (r.header 1 q.header).page .rule
      ((q.scenarios.map ((r.withStep g).scenario 2)).flatMap Scenario.page) := rfl
  rw [page, Header.returns_page, List.flatMap_map, scenarios]
  omega

theorem returns_outline (o : Outline) :
    ∃ c, ∀ g, returns ((r.withStep g).outline o).page = c + stepReturns g o.steps := by
  refine ⟨returns ((r.header 1 o.header).page (.outline o.keyword) []) +
    returns (r.examples o.examples).page, fun g => ?_⟩
  have page : ((r.withStep g).outline o).page =
      (r.header 1 o.header).page (.outline o.keyword)
        ((o.steps.map g).flatMap Step.page ++ (r.examples o.examples).page) := rfl
  rw [page, Header.returns_page, returns_append, stepReturns]
  omega

theorem returns_item (i : Item) :
    ∃ c, ∀ g, returns ((r.withStep g).item i).page = c + stepReturns g i.steps := by
  cases i with
  | scenario s => exact returns_scenario 1 s
  | rule q => exact returns_rule q
  | outline o => exact returns_outline o

theorem returns_background (f : Feature) :
    ∃ c, ∀ g, returns (.ofOption Background.page (f.background.map (r.withStep g).background)) =
      c + stepReturns g f.backgroundSteps := by
  rw [Feature.backgroundSteps]
  cases f.background with
  | none => exact ⟨0, fun _ => rfl⟩
  | some b =>
    exact ⟨returns ((r.header 1 b.header).page .background []), fun _ =>
      Header.returns_page _ _ _⟩

/-- A change of steps changes the carriage returns of a document in its steps only. -/
theorem returns_document (d : Document) :
    ∃ c, ∀ g, returns ((r.withStep g).document d).page = c + stepReturns g d.feature.steps := by
  obtain ⟨c, background⟩ := returns_background (r := r) d.feature
  obtain ⟨c', items⟩ := exists_returns_flatMap fun i (_ : i ∈ d.feature.items) =>
    returns_item (r := r) i
  refine ⟨returns (d.comments.flatMap fun c => (r.comment c).page) +
    returns ((r.header 0 d.feature.header).page .feature []) + c + c', fun g => ?_⟩
  have page : ((r.withStep g).document d).page =
      (d.comments.map r.comment).flatMap Comment.page ++
        (r.header 0 d.feature.header).page .feature
          (.ofOption Background.page (d.feature.background.map (r.withStep g).background) ++
            (d.feature.items.map (r.withStep g).item).flatMap Item.page) := rfl
  rw [page, returns_append, Header.returns_page, returns_append, background, List.flatMap_map,
    List.flatMap_map, items, Feature.steps, stepReturns_append]
  omega

/-- Steps that are read again with as many carriage returns end no line of a DocString with one. -/
theorem withoutReturns_of_stepReturns {steps : List Step}
    (same : stepReturns Step.reread steps = stepReturns Step.unnumbered steps) :
    ∀ s ∈ steps, s.WithoutReturns := by
  intro s hs
  apply s.returns_reread.2
  simp only [stepReturns, List.flatMap_map] at same
  exact (returns_flatMap_le fun t _ => t.returns_reread.1).2 same s hs

end Rewriting

/-! ## Changes that keep pages -/

theorem Table.page_renumber (f : Nat → Nat) (t : Table) : (t.renumber f).page = t.page := by
  simp only [renumber, page, rows, List.flatMap_cons, List.flatMap_map]
  rfl

namespace Rewriting

variable {r : Rewriting}

/-- The change keeps the page of each part. -/
structure KeepsPages (r : Rewriting) : Prop where
  comment : ∀ c, (r.comment c).page = c.page
  header : ∀ depth h kind parts, (r.header depth h).page kind parts = h.page kind parts
  step : ∀ s, (r.step s).page = s.page
  table : ∀ t, (r.table t).page = t.page

namespace KeepsPages

variable (h : r.KeepsPages)
include h

theorem page_scenario (depth : Nat) (s : Scenario) : (r.scenario depth s).page = s.page := by
  simp only [scenario, Scenario.page, h.header, List.flatMap_map, h.step]

theorem page_item (i : Item) : (r.item i).page = i.page := by
  cases i with
  | scenario s => exact h.page_scenario 1 s
  | rule q =>
    simp only [item, Item.page, rule, Rule.page, h.header, List.flatMap_map, h.page_scenario]
  | outline o =>
    have table : Page.ofOption Table.page (o.examples.table.map r.table) =
        Page.ofOption Table.page o.examples.table := by
      cases o.examples.table with
      | none => rfl
      | some t => exact h.table t
    simp only [item, Item.page, outline, examples, Outline.page, Examples.page, h.header,
      List.flatMap_map, h.step, table]

theorem page_document (d : Document) : (r.document d).page = d.page := by
  have background : Page.ofOption Background.page (d.feature.background.map r.background) =
      Page.ofOption Background.page d.feature.background := by
    cases d.feature.background with
    | none => rfl
    | some b =>
      simp only [Option.map_some, Page.ofOption, Rewriting.background, Background.page, h.header,
        List.flatMap_map, h.step]
  simp only [document, Document.page, feature, Feature.page, h.header, List.flatMap_map,
    h.comment, h.page_item, background]

end KeepsPages

theorem keepsPages_renumber (f : Nat → Nat) : (renumber f).KeepsPages where
  comment _ := rfl
  header depth h kind parts := by
    simp only [renumber, Header.renumber, Header.page, List.flatMap_map]
    rfl
  table t := by
    simp only [renumber, Table.page_renumber]
  step s := by
    have argument : Page.ofOption Argument.page (s.argument.map (·.renumber f)) =
        Page.ofOption Argument.page s.argument := by
      rcases s.argument with _ | t | d
      · rfl
      · exact t.page_renumber f
      · rfl
    simp only [renumber, Step.renumber, Step.page, List.flatMap_map, argument]
    rfl

/-- Reading headers and tables again keeps pages, as a description is written without its margin. -/
theorem keepsPages_reread : (reread.withStep Step.unnumbered).KeepsPages where
  comment _ := rfl
  header depth h kind parts := by
    have text : ∀ d : Description,
        Page.line (trimmed (.ofList (indent (depth + 1) ++ trim d.raw.toList))) = d.page := by
      intro d
      rw [trimmed_indent]
      rfl
    simp only [withStep, reread, Header.reread, Header.page, List.flatMap_map, Description.page,
      Description.text, text]
    rfl
  table t := (keepsPages_renumber fun _ => 0).table t
  step s := (keepsPages_renumber fun _ => 0).step s

end Rewriting

/-! ## Scenarios that go into rules -/

namespace Item

variable {before items : List Item} {i : Item}

theorem length_page_pos (i : Item) : 0 < i.page.length := by
  have header : ∀ (h : Header) kind parts, 0 < (h.page kind parts).length := by
    intro h kind parts
    exact Nat.succ_pos _
  cases i with
  | scenario s => exact header _ _ _
  | rule r => exact header _ _ _
  | outline o => exact header _ _ _

/-- The page of items with one more: it is a new item, or it is one level deeper in a rule. -/
theorem page_absorb_cases (before : List Item) (i : Item) :
    ((absorb before i).flatMap page = before.flatMap page ++ i.page ∧
        (absorb before i).length = before.length + 1) ∨
      ((absorb before i).flatMap page = before.flatMap page ++ nested i.page ∧
        (absorb before i).length = before.length) := by
  rcases absorb_cases before i with apart | ⟨init, r, s, rfl, rfl⟩
  · left
    rw [absorb_of_apart apart]
    simp
  · right
    rw [absorb_snoc_rule]
    simp [page, Rule.page, Header.page]

theorem absorbAll_concat : absorbAll (items ++ [i]) = absorb (absorbAll items) i := by
  simp [absorbAll]

theorem returns_page_absorbAll :
    returns ((absorbAll items).flatMap page) = returns (items.flatMap page) := by
  induction items using List.reverseRecOn with
  | nil => rfl
  | append_singleton items i ih =>
    rw [absorbAll_concat, List.flatMap_append, returns_append, ← ih]
    rcases page_absorb_cases (absorbAll items) i with ⟨written, -⟩ | ⟨written, -⟩ <;>
      simp [written]

theorem length_page_absorbAll :
    ((absorbAll items).flatMap page).length = (items.flatMap page).length := by
  induction items using List.reverseRecOn with
  | nil => rfl
  | append_singleton items i ih =>
    rw [absorbAll_concat, List.flatMap_append, List.length_append, ← ih]
    rcases page_absorb_cases (absorbAll items) i with ⟨written, -⟩ | ⟨written, -⟩ <;>
      simp [written, nested]

/-- Each item that goes into a rule makes the page longer. -/
theorem extent_page_absorbAll :
    extent (items.flatMap page) + items.length ≤
      extent ((absorbAll items).flatMap page) + (absorbAll items).length := by
  induction items using List.reverseRecOn with
  | nil => exact Nat.le_refl _
  | append_singleton items i ih =>
    have some_line : 0 < i.page.length := length_page_pos i
    rw [absorbAll_concat, List.flatMap_append, extent_append, List.length_append]
    rcases page_absorb_cases (absorbAll items) i with ⟨written, length⟩ | ⟨written, length⟩
    · simp only [written, length, extent_append, List.flatMap_singleton, List.length_singleton]
      omega
    · simp only [written, length, extent_append, extent_nested, List.flatMap_singleton,
        List.length_singleton]
      omega

/-- If the page is no longer, no item has gone into a rule. -/
theorem isChain_of_extent
    (same : extent ((absorbAll items).flatMap page) = extent (items.flatMap page)) :
    items.IsChain Apart := by
  have longer := @extent_page_absorbAll items
  have fewer : (absorbAll items).length ≤ items.length := by
    simpa [absorbAll] using @length_foldl_absorb_le items []
  exact length_absorbAll_eq_iff.1 (by omega)

end Item

namespace Document

theorem render_renumber (f : Nat → Nat) (d : Document) : (d.renumber f).render = d.render := by
  rw [render, render, renumber_eq, (Rewriting.keepsPages_renumber f).page_document]

/-- The page of a document is that of its items, below a page that does not depend on them. -/
theorem exists_page_eq (d : Document) :
    ∃ p, ∀ items, page { d with feature := { d.feature with items } } =
      p ++ nested (items.flatMap Item.page) := by
  refine ⟨d.comments.flatMap Comment.page ++
    d.feature.header.page .feature (.ofOption Background.page d.feature.background), ?_⟩
  intro items
  simp [page, Feature.page, Header.page]

theorem returns_absorbed (d : Document) : returns d.absorbed.page = returns d.page := by
  obtain ⟨p, written⟩ := d.exists_page_eq
  have whole : d.page = p ++ nested (d.feature.items.flatMap Item.page) := written d.feature.items
  rw [absorbed, written, whole, returns_append, returns_append, returns_nested, returns_nested,
    Item.returns_page_absorbAll]

/-- The text tells whether a scenario has gone into a rule. -/
theorem apart_of_render_absorbed {d : Document} (same : d.absorbed.render = d.render) :
    d.Apart := by
  obtain ⟨p, written⟩ := d.exists_page_eq
  have whole : d.page = p ++ nested (d.feature.items.flatMap Item.page) := written d.feature.items
  have extents : extent d.absorbed.page = extent d.page := by
    rw [← length_text, ← length_text]
    exact congrArg (fun s : String => s.toList.length) same
  rw [absorbed, written, whole, extent_append, extent_append, extent_nested, extent_nested,
    Item.length_page_absorbAll] at extents
  exact Item.isChain_of_extent (by omega)

/-- The text written again is the same if and only if reading has lost nothing. -/
theorem render_reread_eq_iff (d : Document) :
    d.reread.render = d.render ↔ d.WithoutReturns ∧ d.Apart := by
  let kept : Document := (Rewriting.reread.withStep Step.unnumbered).document d
  let again : Document := Rewriting.reread.document d
  have written : kept.page = d.page := Rewriting.keepsPages_reread.page_document d
  have apart : again.Apart ↔ d.Apart := apart_document_iff
  have steps : d.WithoutReturns → again = kept := by
    intro without
    exact Rewriting.document_eq_of_steps (r := Rewriting.reread) fun s hs =>
      Step.reread_eq_iff.2 (without s hs)
  obtain ⟨c, returns_with⟩ := Rewriting.returns_document (r := Rewriting.reread) d
  constructor
  · intro same
    have equal : returns d.reread.page = returns d.page := by
      rw [← count_return_text, ← count_return_text]
      exact congrArg (fun s : String => s.toList.count '\r') same
    have before : returns d.page = c + Rewriting.stepReturns Step.unnumbered d.feature.steps := by
      rw [← written]
      exact returns_with _
    have after : returns d.reread.page = c + Rewriting.stepReturns Step.reread d.feature.steps := by
      rw [reread, returns_absorbed]
      exact returns_with _
    have without : d.WithoutReturns :=
      Rewriting.withoutReturns_of_stepReturns (by omega)
    refine ⟨without, apart.1 (apart_of_render_absorbed ?_)⟩
    have page : again.page = d.page := by rw [steps without, written]
    rw [render, render, page]
    exact same
  · rintro ⟨without, notTaken⟩
    have still : d.reread = again := absorbed_of_apart (apart.2 notTaken)
    rw [render, render, still, steps without, written]

/-- **Fixed point.** The canonical text of a document that was read is read again, and its own
canonical text is the same if and only if no line of a DocString ends with a carriage return and no
scenario stands right below a rule. -/
theorem render_again_iff {text : String} {d : Document} (h : ofText text = .ok d) :
    ∃ d', ofText d.render = .ok d' ∧ (d'.render = d.render ↔ d.WithoutReturns ∧ d.Apart) := by
  obtain ⟨d', read, same⟩ := exists_ofText_render (carried_of_ofText h)
  refine ⟨d', read, ?_⟩
  rw [← render_renumber (fun _ => 0) d', same]
  exact render_reread_eq_iff d

end Document

/-- A feature with a background and a scenario. -/
def plainText : String :=
  "Feature: F\nScenario: S\nThen y\nBackground:\nGiven x\n"

/-- The document of `plainText`. -/
def plainDocument : Document :=
  ⟨[], ⟨⟨1, "F", [], []⟩, some ⟨⟨4, "", [], []⟩, [⟨.given, 5, "x", [], none⟩]⟩,
    [.scenario ⟨.scenario, ⟨2, "S", [], []⟩, [⟨.then_, 3, "y", [], none⟩]⟩]⟩⟩

theorem plainDocument_render_again : Document.ofText plainText = .ok plainDocument ∧
    ∃ d', Document.ofText plainDocument.render = .ok d' ∧ d'.render = plainDocument.render := by
  have read : Document.ofText plainText = .ok plainDocument := by decide +kernel
  obtain ⟨d', again, same⟩ := Document.render_again_iff read
  have without : plainDocument.WithoutReturns := by
    intro s hs d hd
    rcases List.mem_pair.1 hs with rfl | rfl <;> cases hd
  have apart : plainDocument.Apart := .singleton _
  exact ⟨read, d', again, same.2 ⟨without, apart⟩⟩

/-- A background between a rule and a scenario: written above both, it parts them no more. -/
def hoistedText : String :=
  "Feature: F\nRule: R\nBackground:\nGiven x\nScenario: S\n"

/-- The document of `hoistedText`. -/
def hoistedDocument : Document :=
  ⟨[], ⟨⟨1, "F", [], []⟩, some ⟨⟨3, "", [], []⟩, [⟨.given, 4, "x", [], none⟩]⟩,
    [.rule ⟨⟨2, "R", [], []⟩, []⟩, .scenario ⟨.scenario, ⟨5, "S", [], []⟩, []⟩]⟩⟩

/-- A DocString of a line that ends with two carriage returns. -/
def returnsText : String :=
  "Feature: F\nScenario: S\nGiven x\n\"\"\"\nabc\r\r\n\"\"\"\n"

/-- The document of `returnsText`. -/
def returnsDocument : Document :=
  let step : Step := ⟨.given, 3, "x", [], some (.docString ⟨4, .quotes, .quotes, none, ["abc\r"]⟩)⟩
  ⟨[], ⟨⟨1, "F", [], []⟩, none, [.scenario ⟨.scenario, ⟨2, "S", [], []⟩, [step]⟩]⟩⟩

/-- Neither condition is idle: there is a document of each kind that is written again otherwise. -/
theorem render_again_ne :
    (Document.ofText hoistedText = .ok hoistedDocument ∧
      (Document.ofText hoistedDocument.render).map Document.render ≠ .ok hoistedDocument.render) ∧
    (Document.ofText returnsText = .ok returnsDocument ∧
      (Document.ofText returnsDocument.render).map Document.render ≠
        .ok returnsDocument.render) := by
  exact ⟨⟨by decide +kernel, by decide +kernel⟩, ⟨by decide +kernel, by decide +kernel⟩⟩

end Gherkin
