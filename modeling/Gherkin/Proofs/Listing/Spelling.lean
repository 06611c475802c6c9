import Gherkin.Listing.Scenarios
import Gherkin.Listing.Steps
import Gherkin.Proofs.Draft.Recasting

/-!
# Two spellings of one keyword

An outline, a block of examples and a fence have two spellings each, and it makes no difference
which one a line has. `Recast.plain` puts every keyword and fence into one spelling; what is read,
listed and filled goes by a document in plain spelling, but for the column that shows the keyword
(`Document.ofLines_respelled`).
-/

namespace Gherkin

/-- Two kinds that differ in spelling at most. -/
inductive Kind.Alike : Kind → Kind → Prop where
  | same (k : Kind) : Alike k k
  | outline (k k' : OutlineKeyword) : Alike (.outline k) (.outline k')
  | examples (k k' : ExamplesKeyword) : Alike (.examples k) (.examples k')
  | fence (f f' : Fence) : Alike (.fence f) (.fence f')

/-- The second line is the first one, or the first one in the other spelling. -/
structure Line.Respelled (l m : Line) : Prop where
  kind : l.kind.Alike m.kind
  payload : l.payload = m.payload
  number : l.number = m.number
  raw : l.raw = m.raw

/-- Every keyword and fence in its first spelling. -/
def Recast.plain : Recast where
  outline _ := .outline
  examples _ := .examples
  fence _ := .quotes

@[simp] theorem Recast.number_plain (n : Nat) : Recast.plain.number n = n := rfl

/-- The line in plain spelling. -/
def Line.plain (l : Line) : Line :=
  { l with kind := Recast.plain.kind l.kind }

theorem Line.casts_plain (l : Line) : Recast.plain.Casts l l.plain :=
  ⟨rfl, rfl, fun _ => rfl, fun _ => rfl, rfl, fun _ => rfl⟩

theorem Kind.Alike.plain_eq {k k' : Kind} (h : k.Alike k') :
    Recast.plain.kind k = Recast.plain.kind k' := by
  cases h <;> rfl

theorem Line.Respelled.plain_eq {l m : Line} (h : l.Respelled m) : l.plain = m.plain := by
  simp only [Line.plain, h.kind.plain_eq, h.payload, h.number, h.raw]

/-- Lines in other spellings give the same in plain spelling. -/
theorem Document.recasted_plain_eq {ls ms : List Line} (h : List.Forall₂ Line.Respelled ls ms) :
    recasted .plain (·.recast .plain) (ofLines ls) =
      recasted .plain (·.recast .plain) (ofLines ms) := by
  have plain : ∀ ls : List Line, List.Forall₂ Recast.plain.Casts ls (ls.map Line.plain) := by
    intro ls
    rw [List.forall₂_map_right_iff, List.forall₂_same]
    exact fun l _ => l.casts_plain
  have same : ls.map Line.plain = ms.map Line.plain := by
    rw [← List.forall₂_eq_eq_eq, List.forall₂_map_left_iff, List.forall₂_map_right_iff]
    exact h.imp fun l m respelled => respelled.plain_eq
  rw [← ofLines_recast (plain ls), ← ofLines_recast (plain ms), same]

/-! ## Steps that are listed -/

theorem StepEntry.ofSteps_plain (file : String) (steps : List Step) :
    ofSteps file (steps.map (·.recast .plain)) = ofSteps file steps := by
  have keywords : (steps.map (·.recast .plain)).map Step.keyword = steps.map Step.keyword := by
    rw [List.map_map]
    rfl
  rw [ofSteps, keywords, List.zipWith_map_left]
  rfl

theorem Item.stepGroups_plain (i : Item) :
    (i.recast .plain).stepGroups = i.stepGroups.map (·.map (·.recast .plain)) := by
  cases i with
  | rule r => simp [recast, Rule.recast, stepGroups, Scenario.recast]
  | _ => rfl

theorem Feature.stepEntries_plain (f : Feature) (file : String) :
    (f.recast .plain).stepEntries file = f.stepEntries file := by
  have background : (f.recast .plain).backgroundSteps =
      f.backgroundSteps.map (·.recast .plain) := by
    cases hb : f.background <;> simp [backgroundSteps, recast, hb, Background.recast]
  have items : (f.recast .plain).items.flatMap Item.stepGroups =
      (f.items.flatMap Item.stepGroups).map (·.map (·.recast .plain)) := by
    simp only [recast, List.flatMap_map, List.map_flatMap, Item.stepGroups_plain]
  rw [stepEntries, background, items, ← List.map_cons, List.flatMap_map]
  simp only [StepEntry.ofSteps_plain]
  rfl

/-! ## Outlines that are filled -/

/-- A change of the members of a list that is put together of results. -/
theorem map_bind_cons (q : γ → τ) (x : Except ε γ) (xs : Except ε (List γ)) :
    List.map q <$> (do return (← x) :: (← xs)) =
      (do return (← q <$> x) :: (← List.map q <$> xs)) := by
  cases x <;> cases xs <;> rfl

/-- Results of lists are alike if those of their members are. -/
theorem map_mapM_map (p : α → β) (f : β → Except ε γ) (g : α → Except ε δ) (q : γ → τ)
    (q' : δ → τ) (h : ∀ a, q <$> f (p a) = q' <$> g a) (as : List α) :
    List.map q <$> (as.map p).mapM f = List.map q' <$> as.mapM g := by
  induction as with
  | nil => rfl
  | cons a as ih =>
    rw [List.map_cons, List.mapM_cons, List.mapM_cons, map_bind_cons, map_bind_cons, h a, ih]

/-- An instance in plain spelling. -/
def Instance.plain (i : Instance) : Instance :=
  { i with steps := i.steps.map (·.recast .plain) }

theorem Step.fill_plain (s : Step) (headers cells : List String) :
    (s.recast .plain).fill headers cells = (·.recast .plain) <$> s.fill headers cells := by
  simp only [fill, recast, Recast.number_plain]
  cases Placeholder.substitute s.text headers cells s.line <;> rfl

namespace Outline

variable (o : Outline)

theorem fill_plain (headers : List String) (index : Nat) (row : Row) :
    (o.recast .plain).fill headers index (row.recast .plain) =
      Instance.plain <$> o.fill headers index row := by
  have steps : (o.steps.map (·.recast .plain)).mapM (·.fill headers row.cells) =
      List.map (·.recast .plain) <$> o.steps.mapM (·.fill headers row.cells) := by
    have each := map_mapM_map (·.recast .plain) (·.fill headers row.cells)
      (·.fill headers row.cells) id (·.recast .plain)
      (fun s : Step => by rw [id_map, s.fill_plain]) o.steps
    simpa using each
  have cells : (row.recast .plain).cells = row.cells := rfl
  have title : (o.header.recast .plain).title = o.header.title := rfl
  simp only [fill, cells, recast, title, Header.recast_line, Recast.number_plain, steps]
  by_cases width : row.cells.length ≠ headers.length
  · rw [if_pos width, if_pos width]
    rfl
  · rw [if_neg width, if_neg width]
    cases Placeholder.substitute o.header.title headers row.cells o.header.line with
    | error e => rfl
    | ok title => cases o.steps.mapM (·.fill headers row.cells) <;> rfl

theorem fillFrom_plain (headers : List String) (index : Nat) (rows : List Row) :
    (o.recast .plain).fillFrom headers index (rows.map (·.recast .plain)) =
      List.map Instance.plain <$> o.fillFrom headers index rows := by
  induction rows generalizing index with
  | nil => rfl
  | cons row rows ih =>
    rw [List.map_cons, fillFrom, fillFrom, fill_plain, ih, map_bind_cons]

theorem instances_plain :
    (o.recast .plain).instances = List.map Instance.plain <$> o.instances := by
  have table : (o.recast .plain).examples.table = o.examples.table.map (·.recast .plain) := rfl
  rw [instances, instances, table]
  cases o.examples.table with
  | none => rfl
  | some t => exact o.fillFrom_plain t.first.cells 0 t.others

end Outline

/-! ## Scenarios that are listed -/

/-- The entry without its keyword. -/
def ScenarioEntry.wordless (e : ScenarioEntry) : ScenarioEntry :=
  { e with keyword := "" }

theorem ScenarioEntry.ofScenario_plain (file : String) (rule : Option String) (s : Scenario) :
    ofScenario file rule (s.recast .plain) = ofScenario file rule s := by
  simp [ofScenario, Scenario.recast, Header.recast]

theorem ScenarioEntry.ofOutline_plain (file : String) (o : Outline) :
    (ofOutline file (o.recast .plain)).wordless = (ofOutline file o).wordless := by
  simp [ofOutline, Outline.recast, Header.recast, wordless]

theorem ScenarioEntry.ofInstance_plain (file : String) (o : Outline) (i : Instance) :
    (ofInstance file (o.recast .plain) i.plain).wordless = (ofInstance file o i).wordless := by
  simp [ofInstance, ofOutline, Outline.recast, wordless, Instance.plain]

theorem Item.scenarioEntries_plain (i : Item) (file : String) :
    ((i.recast .plain).scenarioEntries file).map ScenarioEntry.wordless =
      (i.scenarioEntries file).map ScenarioEntry.wordless := by
  cases i with
  | scenario s => simp [recast, scenarioEntries, ScenarioEntry.ofScenario_plain]
  | rule r =>
    simp [recast, scenarioEntries, Rule.recast, Header.recast, ScenarioEntry.ofScenario_plain]
  | outline o => simp [recast, scenarioEntries, ScenarioEntry.ofOutline_plain]

theorem Item.expandedEntries_plain (i : Item) (file : String) :
    List.map ScenarioEntry.wordless <$> (i.recast .plain).expandedEntries file =
      List.map ScenarioEntry.wordless <$> i.expandedEntries file := by
  have plain := i.scenarioEntries_plain file
  cases i with
  | outline o =>
    simp only [recast, expandedEntries, o.instances_plain]
    cases o.instances <;>
      simp [Functor.map, Except.map, ScenarioEntry.ofInstance_plain]
  | _ => exact congrArg Except.ok plain

namespace Feature

variable (f : Feature) (file : String)

theorem scenarioEntries_plain :
    ((f.recast .plain).scenarioEntries file).map ScenarioEntry.wordless =
      (f.scenarioEntries file).map ScenarioEntry.wordless := by
  simp only [scenarioEntries, recast, List.flatMap_map, List.map_flatMap,
    Item.scenarioEntries_plain]

theorem expandedEntries_plain :
    List.map ScenarioEntry.wordless <$> (f.recast .plain).expandedEntries file =
      List.map ScenarioEntry.wordless <$> f.expandedEntries file := by
  have items := map_mapM_map (·.recast .plain) (·.expandedEntries file)
    (·.expandedEntries file) _ _ (fun i : Item => i.expandedEntries_plain file) f.items
  have flat : ∀ x : Except FillError (List (List ScenarioEntry)),
      List.map ScenarioEntry.wordless <$> List.flatten <$> x =
        List.flatten <$> List.map (List.map ScenarioEntry.wordless) <$> x := by
    intro x
    cases x <;> simp [Functor.map, Except.map]
  rw [expandedEntries, expandedEntries, flat, flat, ← items]
  rfl

theorem outlines_plain : (f.recast .plain).outlines = f.outlines.map (·.recast .plain) := by
  have item : ∀ i : Item, (i.recast .plain).outline? = i.outline?.map (·.recast .plain) := by
    intro i
    cases i <;> rfl
  simp [outlines, recast, List.filterMap_map, List.map_filterMap, item]

end Feature

/-- **Spelling makes no difference.** If lines differ in the spelling of outlines, of blocks of
examples and of fences, then they give the same document or the same violation up to spelling. The
steps that are listed are the same; so are the scenarios, with and without the data of outlines,
but for the keyword; and each outline is filled alike. -/
theorem Document.ofLines_respelled {ls ms : List Line} (h : List.Forall₂ Line.Respelled ls ms) :
    match ofLines ls, ofLines ms with
    | .error v, .error w => v.recast .plain = w.recast .plain
    | .ok d, .ok e =>
      d.recast .plain = e.recast .plain ∧
      ∀ file : String,
        d.feature.stepEntries file = e.feature.stepEntries file ∧
        (d.feature.scenarioEntries file).map ScenarioEntry.wordless =
          (e.feature.scenarioEntries file).map ScenarioEntry.wordless ∧
        List.map ScenarioEntry.wordless <$> d.feature.expandedEntries file =
          List.map ScenarioEntry.wordless <$> e.feature.expandedEntries file ∧
        d.feature.outlines.map (fun o => List.map Instance.plain <$> o.instances) =
          e.feature.outlines.map (fun o => List.map Instance.plain <$> o.instances)
    | _, _ => False := by
  have same := recasted_plain_eq h
  cases hl : ofLines ls <;> cases hm : ofLines ms <;>
    simp only [hl, hm, recasted, Except.ok.injEq, Except.error.injEq, reduceCtorEq] at same ⊢
  · exact same
  · next d e =>
    have feature : d.feature.recast .plain = e.feature.recast .plain := by
      exact congrArg Document.feature same
    refine ⟨same, fun file => ⟨?_, ?_, ?_, ?_⟩⟩
    · rw [← Feature.stepEntries_plain, feature, Feature.stepEntries_plain]
    · rw [← Feature.scenarioEntries_plain, feature, Feature.scenarioEntries_plain]
    · rw [← Feature.expandedEntries_plain, feature, Feature.expandedEntries_plain]
    · have filled : ∀ f : Feature,
          f.outlines.map (fun o => List.map Instance.plain <$> o.instances) =
            (f.recast .plain).outlines.map Outline.instances := by
        intro f
        simp only [f.outlines_plain, List.map_map, Function.comp_def, Outline.instances_plain]
      rw [filled, filled, feature]

/-- The lines of an outline with a DocString and one row of data, in any spelling. -/
def outlineLines (k : OutlineKeyword) (x : ExamplesKeyword) (f g : Fence) : List Line :=
  [⟨.feature, "F", 1, "Feature: F"⟩, ⟨.outline k, "S <a>", 2, "Scenario Outline: S <a>"⟩,
   ⟨.step .given, "<a>", 3, "Given <a>"⟩, ⟨.fence f, "", 4, "```"⟩,
   ⟨.description, "text", 5, "text"⟩, ⟨.fence g, "", 6, "```"⟩, ⟨.examples x, "", 7, "Examples:"⟩,
   ⟨.row, "|a|", 8, "|a|"⟩, ⟨.row, "|1|", 9, "|1|"⟩]

theorem outlineLines_respelled :
    List.Forall₂ Line.Respelled (outlineLines .template .scenarios .quotes .backticks)
      (outlineLines .outline .examples .backticks .backticks) ∧
    ∃ d e : Document,
      Document.ofLines (outlineLines .template .scenarios .quotes .backticks) = .ok d ∧
      Document.ofLines (outlineLines .outline .examples .backticks .backticks) = .ok e ∧
      d.recast .plain = e.recast .plain ∧
      List.map ScenarioEntry.wordless <$> d.feature.expandedEntries "f" =
        List.map ScenarioEntry.wordless <$> e.feature.expandedEntries "f" := by
  have respelled : List.Forall₂ Line.Respelled
      (outlineLines .template .scenarios .quotes .backticks)
      (outlineLines .outline .examples .backticks .backticks) := by
    repeat' constructor
  obtain ⟨d, hd⟩ : ∃ d, Document.ofLines
      (outlineLines .template .scenarios .quotes .backticks) = .ok d := ⟨_, rfl⟩
  obtain ⟨e, he⟩ : ∃ e, Document.ofLines
      (outlineLines .outline .examples .backticks .backticks) = .ok e := ⟨_, rfl⟩
  have alike := Document.ofLines_respelled respelled
  rw [hd, he] at alike
  exact ⟨respelled, d, e, hd, he, alike.1, (alike.2 "f").2.2.1⟩

end Gherkin
