import Gherkin.Proofs.RoundTrip.Documents

/-!
# When the round trip is exact

The tree of a document comes back from its canonical text, numbers and margins of descriptions
aside, if and only if no line of a DocString ends with a carriage return and no scenario stands
right below a rule (`Document.bare_eq_iff`).
-/

namespace Gherkin

open Text Page

/-- No line of a DocString ends with a carriage return. -/
def Step.WithoutReturns (s : Step) : Prop :=
  ∀ d, s.argument = some (.docString d) → ∀ l ∈ d.lines, l.toList.getLast? ≠ some '\r'

/-- No line of a DocString of any step ends with a carriage return. -/
def Document.WithoutReturns (d : Document) : Prop :=
  ∀ s ∈ d.feature.steps, s.WithoutReturns

/-- No scenario stands right below a rule. -/
def Document.Apart (d : Document) : Prop :=
  d.feature.items.IsChain Item.Apart

/-! ## Changes after one another -/

namespace Rewriting

variable {r q : Rewriting} {g g' : Step → Step}

/-- The change `q` and then the change `r`. -/
def comp (r q : Rewriting) : Rewriting where
  comment := r.comment ∘ q.comment
  header depth := r.header depth ∘ q.header depth
  step := r.step ∘ q.step
  table := r.table ∘ q.table

theorem scenario_comp (depth : Nat) (s : Scenario) :
    r.scenario depth (q.scenario depth s) = (r.comp q).scenario depth s := by
  simp [scenario, comp]

theorem background_comp (b : Background) :
    r.background (q.background b) = (r.comp q).background b := by
  simp [background, comp]

theorem item_comp (i : Item) : r.item (q.item i) = (r.comp q).item i := by
  cases i with
  | scenario s => simp [item, scenario_comp]
  | rule g =>
    simp only [item, rule, List.map_map, comp, Function.comp_def, scenario_comp]
  | outline o => simp [item, outline, examples, comp, Function.comp_def]

theorem document_comp (d : Document) : r.document (q.document d) = (r.comp q).document d := by
  simp only [document, feature, List.map_map, Option.map_map, Function.comp_def, item_comp,
    background_comp]
  rfl

/-- The change with another one for steps. -/
def withStep (r : Rewriting) (g : Step → Step) : Rewriting :=
  { r with step := g }

theorem scenario_eq_iff {depth : Nat} {s : Scenario} :
    (r.withStep g).scenario depth s = (r.withStep g').scenario depth s ↔
      ∀ t ∈ s.steps, g t = g' t := by
  simp [scenario, withStep]

theorem item_eq_iff {i : Item} :
    (r.withStep g).item i = (r.withStep g').item i ↔ ∀ t ∈ i.steps, g t = g' t := by
  cases i with
  | scenario s => simp [item, scenario_eq_iff, Item.steps]
  | rule q =>
    simp only [item, rule, Item.rule.injEq, Rule.mk.injEq, List.map_inj_left, scenario_eq_iff,
      Item.steps, List.mem_flatMap]
    constructor
    · rintro ⟨-, all⟩ t ⟨s, hs, ht⟩
      exact all s hs t ht
    · intro all
      exact ⟨rfl, fun s hs t ht => all t ⟨s, hs, ht⟩⟩
  | outline o => simp [item, outline, examples, withStep, Item.steps]

theorem feature_steps (f : Feature) (t : Step) :
    t ∈ f.steps ↔ (∃ b, f.background = some b ∧ t ∈ b.steps) ∨ ∃ i ∈ f.items, t ∈ i.steps := by
  rw [Feature.steps, List.mem_append, List.mem_flatMap, Feature.backgroundSteps]
  cases f.background <;> simp

/-- Two changes that differ for steps only agree on a document if they agree on its steps. -/
theorem document_eq_of_steps {d : Document} (h : ∀ t ∈ d.feature.steps, g t = g' t) :
    (r.withStep g).document d = (r.withStep g').document d := by
  have items : d.feature.items.map (r.withStep g).item =
      d.feature.items.map (r.withStep g').item := by
    rw [List.map_inj_left]
    intro i hi
    refine item_eq_iff.2 fun t ht => h t ?_
    exact (feature_steps _ _).2 (.inr ⟨i, hi, ht⟩)
  have background : d.feature.background.map (r.withStep g).background =
      d.feature.background.map (r.withStep g').background := by
    cases hb : d.feature.background with
    | none => rfl
    | some b =>
      have steps : b.steps.map g = b.steps.map g' := by
        rw [List.map_inj_left]
        intro t ht
        exact h t ((feature_steps _ _).2 (.inl ⟨b, hb, ht⟩))
      simp only [Option.map_some, Rewriting.background, withStep, steps]
  simp only [document, feature, items, background]
  rfl

/-- If two changes that differ for steps only agree on a document, they agree on its steps. -/
theorem step_eq_of_document {d : Document}
    (h : (r.withStep g).document d = (r.withStep g').document d) :
    ∀ t ∈ d.feature.steps, g t = g' t := by
  simp only [document, feature, Document.mk.injEq, Feature.mk.injEq] at h
  obtain ⟨-, -, background, items⟩ := h
  intro t ht
  rcases (feature_steps _ _).1 ht with ⟨b, hb, ht⟩ | ⟨i, hi, ht⟩
  · rw [hb] at background
    simp only [Option.map_some, Rewriting.background, withStep, Option.some.injEq,
      Background.mk.injEq, true_and] at background
    exact List.map_inj_left.1 background t ht
  · exact item_eq_iff.1 (List.map_inj_left.1 items i hi) t ht

end Rewriting

/-! ## What reading again loses -/

theorem DocString.reread_lines_eq_iff {d : DocString} :
    d.reread.lines = d.lines ↔ ∀ l ∈ d.lines, l.toList.getLast? ≠ some '\r' := by
  have each : ∀ l : String, String.ofList (chomp l.toList) = l ↔
      l.toList.getLast? ≠ some '\r' := by
    intro l
    rw [← chomp_eq_self_iff, ← String.toList_inj, String.toList_ofList]
  rw [reread, ← List.map_id d.lines]
  simp only [List.map_map, List.map_inj_left, Function.comp_apply, id_eq, each]
  simp

/-- A step comes back as it is if no line of its DocString ends with a carriage return. -/
theorem Step.reread_eq_iff {s : Step} : s.reread = s.unnumbered ↔ s.WithoutReturns := by
  rcases s with ⟨keyword, line, text, comments, _ | t | d⟩
  · simp [reread, unnumbered, renumber, WithoutReturns]
  · simp [reread, unnumbered, renumber, WithoutReturns, Argument.reread, Argument.renumber,
      Table.unnumbered]
  · have same : d.reread = d.renumber (fun _ => 0) ↔ d.reread.lines = d.lines := by
      constructor
      · intro h
        rw [h]
        rfl
      · intro h
        have whole : d.reread = { d with line := 0, lines := d.reread.lines } := rfl
        rw [whole, h]
        rfl
    simp [reread, unnumbered, renumber, WithoutReturns, Argument.reread, Argument.renumber,
      same, DocString.reread_lines_eq_iff]

/-- A margin and the white space at the ends do not change what is trimmed. -/
theorem trimmed_indent (depth : Nat) (s : String) :
    trimmed (.ofList (indent depth ++ trim s.toList)) = trimmed s := by
  rw [trimmed, String.toList_ofList, trim_append_of_blank (isBlank_of_mem_indent _), trim_trim,
    trimmed]

theorem Header.bare_reread (depth : Nat) (h : Header) : (h.reread depth).bare = h.bare := by
  simp [bare, reread, Comment.unnumbered, Comment.renumber, Description.text, trimmed_indent,
    -String.ofList_append]

theorem Table.unnumbered_unnumbered (t : Table) : t.unnumbered.unnumbered = t.unnumbered := by
  simp [unnumbered, renumber, Row.renumber, Comment.renumber]

theorem Step.unnumbered_reread (s : Step) : s.reread.unnumbered = s.reread := by
  rcases s with ⟨keyword, line, text, comments, _ | t | d⟩
  · simp [reread, unnumbered, renumber, Comment.renumber]
  · have table : t.unnumbered.renumber (fun _ => 0) = t.unnumbered := t.unnumbered_unnumbered
    simp [reread, unnumbered, renumber, Comment.renumber, Argument.reread, Argument.renumber, table]
  · simp [reread, unnumbered, renumber, Comment.renumber, Argument.reread, Argument.renumber,
      DocString.reread, DocString.renumber]

/-- Reading again, numbers and margins aside. -/
theorem Rewriting.bare_comp_reread : bare.comp reread = bare.withStep Step.reread := by
  simp only [comp, bare, reread, withStep, mk.injEq]
  refine ⟨rfl, ?_, ?_, ?_⟩
  · funext depth h
    exact h.bare_reread depth
  · funext s
    exact s.unnumbered_reread
  · funext t
    exact t.unnumbered_unnumbered

/-! ## What numbers leave alone -/

theorem Header.bare_renumber (f : Nat → Nat) (h : Header) : (h.renumber f).bare = h.bare := by
  simp [bare, renumber, Comment.unnumbered, Comment.renumber, Description.text,
    Description.renumber]

theorem Table.unnumbered_renumber (f : Nat → Nat) (t : Table) :
    (t.renumber f).unnumbered = t.unnumbered := by
  simp [unnumbered, renumber, Row.renumber, Comment.renumber]

theorem Step.unnumbered_renumber (f : Nat → Nat) (s : Step) :
    (s.renumber f).unnumbered = s.unnumbered := by
  rcases s with ⟨keyword, line, text, comments, _ | t | d⟩
  · simp [unnumbered, renumber, Comment.renumber]
  · have table : (t.renumber f).renumber (fun _ => 0) = t.renumber fun _ => 0 :=
      t.unnumbered_renumber f
    simp [unnumbered, renumber, Comment.renumber, Argument.renumber, table]
  · simp [unnumbered, renumber, Comment.renumber, Argument.renumber, DocString.renumber]

/-- A change of numbers only. -/
def Rewriting.renumber (f : Nat → Nat) : Rewriting where
  comment := (·.renumber f)
  header _ := (·.renumber f)
  step := (·.renumber f)
  table := (·.renumber f)

theorem Document.renumber_eq (f : Nat → Nat) (d : Document) :
    d.renumber f = (Rewriting.renumber f).document d := by
  have scenario : ∀ depth (s : Scenario),
      s.renumber f = (Rewriting.renumber f).scenario depth s := fun _ _ => rfl
  have item : ∀ i : Item, i.renumber f = (Rewriting.renumber f).item i := by
    intro i
    cases i <;> rfl
  simp only [renumber, Feature.renumber, item]
  rfl

/-- A document says the same under other numbers. -/
theorem Document.bare_renumber (f : Nat → Nat) (d : Document) : (d.renumber f).bare = d.bare := by
  have same : Rewriting.bare.comp (Rewriting.renumber f) = Rewriting.bare := by
    simp only [Rewriting.comp, Rewriting.bare, Rewriting.renumber, Rewriting.mk.injEq]
    refine ⟨rfl, ?_, ?_, ?_⟩
    · funext depth h
      exact h.bare_renumber f
    · funext s
      exact s.unnumbered_renumber f
    · funext t
      exact t.unnumbered_renumber f
  rw [bare, bare, renumber_eq, Rewriting.document_comp, same]

/-! ## Scenarios that go into rules -/

namespace Item

variable {items before : List Item} {i j : Item}

theorem length_absorb_le : (absorb before i).length ≤ before.length + 1 := by
  rcases absorb_cases before i with apart | ⟨init, r, s, rfl, rfl⟩
  · simp [absorb_of_apart apart]
  · simp [absorb_snoc_rule]

theorem length_foldl_absorb_le :
    (items.foldl absorb before).length ≤ before.length + items.length := by
  induction items generalizing before with
  | nil => simp
  | cons i items ih =>
    have first : (absorb before i).length ≤ before.length + 1 := length_absorb_le
    have rest := @ih (absorb before i)
    rw [List.foldl_cons, List.length_cons]
    omega

/-- Items none of which goes into a rule are read as they are. -/
theorem foldl_absorb_of_isChain (h : (before ++ items).IsChain Apart) :
    items.foldl absorb before = before ++ items := by
  induction items generalizing before with
  | nil => simp
  | cons i items ih =>
    have whole : before ++ i :: items = (before ++ [i]) ++ items := by simp
    have apart : ∀ j, before.getLast? = some j → j.Apart i := by
      intro j last
      exact (List.isChain_append.1 h).2.2 j last i rfl
    rw [List.foldl_cons, absorb_of_apart apart, whole]
    rw [whole] at h
    exact ih h

/-- If the number of items is kept, none of them has gone into a rule. -/
theorem isChain_of_length (h : before.IsChain Apart)
    (kept : (items.foldl absorb before).length = before.length + items.length) :
    (before ++ items).IsChain Apart := by
  induction items generalizing before with
  | nil => simpa using h
  | cons i items ih =>
    rw [List.foldl_cons, List.length_cons] at kept
    rcases absorb_cases before i with apart | ⟨init, r, s, rfl, rfl⟩
    · rw [absorb_of_apart apart] at kept
      have rest := ih (isChain_snoc h apart) (by rw [kept]; simp; omega)
      simpa using rest
    · rw [absorb_snoc_rule] at kept
      have most := @length_foldl_absorb_le items
        (init ++ [.rule { r with scenarios := r.scenarios ++ [s] }])
      simp only [List.length_append, List.length_singleton] at kept most
      omega

/-- The number of items is kept if and only if none of them goes into a rule. -/
theorem length_absorbAll_eq_iff :
    (absorbAll items).length = items.length ↔ items.IsChain Apart := by
  constructor
  · intro same
    have kept : (items.foldl absorb []).length = ([] : List Item).length + items.length := by
      rw [← absorbAll, same]
      simp
    simpa using isChain_of_length .nil kept
  · intro apart
    have whole : ([] ++ items).IsChain Apart := apart
    rw [absorbAll, foldl_absorb_of_isChain whole]
    rfl

theorem absorbAll_of_isChain (h : items.IsChain Apart) : absorbAll items = items := by
  have whole : ([] ++ items).IsChain Apart := h
  exact foldl_absorb_of_isChain whole

theorem apart_item_iff {r : Rewriting} : (r.item i).Apart (r.item j) ↔ i.Apart j := by
  cases i <;> cases j <;> rfl

/-- A change that is the same at every depth may come before or after. -/
theorem map_absorb {r : Rewriting} (flat : r.header 1 = r.header 2) :
    (absorb before i).map r.item = absorb (before.map r.item) (r.item i) := by
  rcases absorb_cases before i with apart | ⟨init, q, s, rfl, rfl⟩
  · have still : ∀ j, (before.map r.item).getLast? = some j → j.Apart (r.item i) := by
      intro j last
      rw [List.getLast?_map, Option.map_eq_some_iff] at last
      obtain ⟨j, last, rfl⟩ := last
      exact apart_item_iff.2 (apart j last)
    rw [absorb_of_apart apart, absorb_of_apart still]
    simp
  · have scenario : r.scenario 1 s = r.scenario 2 s := by
      rw [Rewriting.scenario, flat]
      rfl
    rw [absorb_snoc_rule]
    simp only [List.map_append, List.map_cons, List.map_nil, Rewriting.item, absorb_snoc_rule,
      scenario]
    simp [Rewriting.rule]

theorem map_absorbAll {r : Rewriting} (flat : r.header 1 = r.header 2) :
    (absorbAll items).map r.item = absorbAll (items.map r.item) := by
  have all : ∀ before, (items.foldl absorb before).map r.item =
      (items.map r.item).foldl absorb (before.map r.item) := by
    induction items with
    | nil => simp
    | cons i items ih =>
      intro before
      rw [List.foldl_cons, ih, map_absorb flat]
      rfl
  exact all []

end Item

/-! ## The exact condition -/

namespace Document

/-- What is read again of a document, numbers and margins aside. -/
theorem bare_reread (d : Document) :
    d.reread.bare = ((Rewriting.bare.withStep Step.reread).document d).absorbed := by
  rw [← Rewriting.bare_comp_reread, ← Rewriting.document_comp]
  have flat : Rewriting.bare.header 1 = Rewriting.bare.header 2 := rfl
  simp only [reread, bare, absorbed, Rewriting.document, Rewriting.feature,
    Item.map_absorbAll flat]

theorem apart_document_iff {r : Rewriting} {d : Document} : (r.document d).Apart ↔ d.Apart := by
  simp only [Apart, Rewriting.document, Rewriting.feature, List.isChain_map, Item.apart_item_iff]

/-- No scenario goes into a rule if none stands right below one. -/
theorem absorbed_of_apart {d : Document} (h : d.Apart) : d.absorbed = d := by
  rw [absorbed, Item.absorbAll_of_isChain h]

/-- Reading again keeps the tree of a document if and only if no carriage return is lost and no
scenario goes into a rule. -/
theorem bare_reread_eq_iff (d : Document) :
    d.reread.bare = d.bare ↔ d.WithoutReturns ∧ d.Apart := by
  have steps : (Rewriting.bare.withStep Step.reread).document d = d.bare ↔ d.WithoutReturns := by
    constructor
    · intro same t ht
      have unchanged : (Rewriting.bare.withStep Step.reread).document d =
          (Rewriting.bare.withStep Step.unnumbered).document d := same
      exact Step.reread_eq_iff.1 (Rewriting.step_eq_of_document unchanged t ht)
    · intro without
      exact Rewriting.document_eq_of_steps fun t ht => Step.reread_eq_iff.2 (without t ht)
  rw [bare_reread]
  constructor
  · intro same
    have apart : d.Apart := by
      rw [← apart_document_iff (r := Rewriting.bare.withStep Step.reread), Apart,
        ← Item.length_absorbAll_eq_iff]
      have items := congrArg (fun e : Document => e.feature.items.length) same
      simpa [absorbed, Rewriting.document, Rewriting.feature, bare] using items
    rw [absorbed_of_apart (apart_document_iff.2 apart)] at same
    exact ⟨steps.1 same, apart⟩
  · rintro ⟨without, apart⟩
    rw [absorbed_of_apart (apart_document_iff.2 apart)]
    exact steps.2 without

/-- **Exact round trip.** The canonical text of a document that was read is a document, and its
tree is the same, numbers and margins of descriptions aside, if and only if no line of a DocString
ends with a carriage return and no scenario stands right below a rule. -/
theorem round_trip_exact_iff {text : String} {d : Document} (h : ofText text = .ok d) :
    ∃ d', ofText d.render = .ok d' ∧ (d'.bare = d.bare ↔ d.WithoutReturns ∧ d.Apart) := by
  obtain ⟨d', read, same⟩ := exists_ofText_render (carried_of_ofText h)
  refine ⟨d', read, ?_⟩
  rw [← bare_renumber (fun _ => 0) d', same]
  exact bare_reread_eq_iff d

end Document

/-- A feature with a DocString and, at its end, a rule. -/
def roundText : String :=
  "Feature: F\nScenario: S\nGiven x\n```md\n a\n```\nRule: R\nExample: E\n"

/-- The document of `roundText`. -/
def roundDocument : Document :=
  let doc : DocString := ⟨4, .backticks, .backticks, some "md", [" a"]⟩
  let step : Step := ⟨.given, 3, "x", [], some (.docString doc)⟩
  ⟨[], ⟨⟨1, "F", [], []⟩, none,
    [.scenario ⟨.scenario, ⟨2, "S", [], []⟩, [step]⟩,
     .rule ⟨⟨7, "R", [], []⟩, [⟨.example_, ⟨8, "E", [], []⟩, []⟩]⟩]⟩⟩

theorem roundDocument_round_trip : Document.ofText roundText = .ok roundDocument ∧
    ∃ d', Document.ofText roundDocument.render = .ok d' ∧ d'.bare = roundDocument.bare := by
  have read : Document.ofText roundText = .ok roundDocument := by decide +kernel
  obtain ⟨d', again, same⟩ := Document.round_trip_exact_iff read
  have without : roundDocument.WithoutReturns := by
    intro s hs d hd l hl
    obtain rfl := List.mem_singleton.1 hs
    cases hd
    obtain rfl := List.mem_singleton.1 hl
    decide
  have apart : roundDocument.Apart := .cons_cons trivial (.singleton _)
  exact ⟨read, d', again, same.2 ⟨without, apart⟩⟩

end Gherkin
