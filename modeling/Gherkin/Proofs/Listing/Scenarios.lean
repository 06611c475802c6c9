import Gherkin.Batch
import Gherkin.Proofs.Outline.Filling
import Gherkin.Proofs.Ownership.Numbers

/-!
# Scenarios that are listed

The plain listing has one entry for each scenario and each outline of a feature
(`Feature.forall₂_scenarioEntries`). The expanded listing is the plain one with the entry of each
outline replaced by the entries of its rows (`Feature.expandedEntries_groups`); it fails if an
outline cannot be filled, and then as the first of these fails (`Feature.failure?_expandedEntries`).
Both stand in the order of the lines: an outline has its rows below its own header and above the
next one.
-/

namespace Gherkin

/-- A scenario, with the title of the rule around it if there is one, or an outline. -/
inductive Scene where
  | scenario (rule : Option String) (scenario : Scenario)
  | outline (outline : Outline)

/-- The scenarios and outlines of an item. -/
def Item.scenes : Item → List Scene
  | .scenario s => [.scenario none s]
  | .rule r => r.scenarios.map (.scenario (some r.header.title))
  | .outline o => [.outline o]

/-- The scenarios and outlines of a feature. -/
def Feature.scenes (f : Feature) : List Scene :=
  f.items.flatMap Item.scenes

/-- The container is a scenario or an outline. -/
def Container.isScene (c : Container) : Bool :=
  match c.kind with
  | .scenario _ | .outline _ => true
  | _ => false

namespace Scene

def container : Scene → Container
  | .scenario _ s => s.container
  | .outline o => ⟨.outline o.keyword, o.header, o.steps, none⟩

/-- The title of the rule around the scene. -/
def rule? : Scene → Option String
  | .scenario rule _ => rule
  | .outline _ => none

/-- The entry shows the scene as a whole. -/
structure ShownBy (sc : Scene) (file : String) (e : ScenarioEntry) : Prop where
  file : e.file = file
  line : e.line = sc.container.header.line
  keyword : e.keyword = sc.container.kind.keyword
  name : e.name = sc.container.header.title
  rule : e.rule = sc.rule?
  steps : e.steps = sc.container.steps.length
  exampleRow : e.exampleRow = none

/-- What the expanded listing has in place of the entry `e` of the scene: the entry itself for a
scenario, and for an outline an entry for each row of data, which stands on the line of the row and
has the title that the row fills in. -/
inductive Expands : (sc : Scene) → (e : ScenarioEntry) → (es : List ScenarioEntry) → Prop where
  | scenario {rule : Option String} {s : Scenario} {e : ScenarioEntry} :
      Expands (.scenario rule s) e [e]
  | outline {o : Outline} {e : ScenarioEntry} {es : List ScenarioEntry}
      (length : es.length = o.dataRows.length)
      (rows : ∀ (j : Nat) (r : Row), o.dataRows[j]? = some r → ∃ name,
        Placeholder.FilledWith o.columns r.cells o.header.title name ∧
        es[j]? = some { e with line := r.line, name := name, exampleRow := some j }) :
      Expands (.outline o) e es

end Scene

/-! ## The plain listing -/

namespace Item

variable (i : Item) (file : String)

/-- The scenes of an item are those among its containers. -/
theorem map_container_scenes :
    i.scenes.map Scene.container = i.containers.filter Container.isScene := by
  cases i with
  | scenario s => rfl
  | rule r =>
    have scenarios : (r.scenarios.map Scenario.container).filter Container.isScene =
        r.scenarios.map Scenario.container := by
      rw [List.filter_eq_self]
      intro c hc
      obtain ⟨s, -, rfl⟩ := List.mem_map.1 hc
      rfl
    rw [containers, List.filter_cons_of_neg (by simp [Container.isScene]), scenarios, scenes,
      List.map_map]
    rfl
  | outline o => rfl

theorem forall₂_scenarioEntries :
    List.Forall₂ (fun sc e => Scene.ShownBy sc file e) i.scenes (i.scenarioEntries file) := by
  cases i with
  | scenario s => exact .cons ⟨rfl, rfl, rfl, rfl, rfl, rfl, rfl⟩ .nil
  | rule r =>
    rw [scenes, scenarioEntries, List.forall₂_map_left_iff, List.forall₂_map_right_iff,
      List.forall₂_same]
    exact fun s _ => ⟨rfl, rfl, rfl, rfl, rfl, rfl, rfl⟩
  | outline o => exact .cons ⟨rfl, rfl, rfl, rfl, rfl, rfl, rfl⟩ .nil

end Item

namespace Feature

variable (f : Feature) (file : String)

/-- Each container that is a scenario or an outline is one scene, and in the same order. -/
theorem map_container_scenes :
    f.scenes.map Scene.container = f.containers.filter Container.isScene := by
  have background :
      (f.background.toList.map Background.container).filter Container.isScene = [] := by
    rw [List.filter_eq_nil_iff]
    intro c hc
    obtain ⟨b, -, rfl⟩ := List.mem_map.1 hc
    simp [Container.isScene, Background.container]
  rw [scenes, containers, List.filter_append, background, List.nil_append, List.map_flatMap,
    List.filter_flatMap]
  simp only [Item.map_container_scenes]

/-- A scene has the title of the rule that it stands in. -/
theorem scenario_mem_scenes_iff {rule : Option String} {s : Scenario} :
    .scenario rule s ∈ f.scenes ↔ (.scenario s ∈ f.items ∧ rule = none) ∨
      ∃ r, .rule r ∈ f.items ∧ s ∈ r.scenarios ∧ rule = some r.header.title := by
  rw [scenes, List.mem_flatMap]
  constructor
  · rintro ⟨t | r | o, hi, mem⟩
    · cases List.mem_singleton.1 mem
      exact .inl ⟨hi, rfl⟩
    · obtain ⟨t, ht, same⟩ := List.mem_map.1 mem
      cases same
      exact .inr ⟨r, hi, ht, rfl⟩
    · cases List.mem_singleton.1 mem
  · rintro (⟨hi, rfl⟩ | ⟨r, hi, hs, rfl⟩)
    · exact ⟨_, hi, List.mem_singleton.2 rfl⟩
    · exact ⟨_, hi, List.mem_map_of_mem hs⟩

/-- There is one entry for each scene. -/
theorem forall₂_scenarioEntries :
    List.Forall₂ (fun sc e => Scene.ShownBy sc file e) f.scenes (f.scenarioEntries file) := by
  rw [scenes, scenarioEntries]
  induction f.items with
  | nil => exact .nil
  | cons i is ih => exact List.rel_append (i.forall₂_scenarioEntries file) ih

end Feature

/-! ## The expanded listing -/

theorem Item.failure?_expandedEntries (i : Item) (file : String) :
    failure? (i.expandedEntries file) = i.outline?.bind fun o => failure? o.instances := by
  cases i with
  | outline o => exact failure?_map _ o.instances
  | _ => rfl

/-- The first outline that cannot be filled decides. -/
theorem Feature.failure?_expandedEntries (f : Feature) (file : String) :
    failure? (f.expandedEntries file) = f.outlines.findSome? fun o => failure? o.instances := by
  rw [expandedEntries, failure?_map, failure?_mapM, outlines, ← List.head?_filterMap,
    ← List.head?_filterMap, List.filterMap_filterMap]
  simp only [Item.failure?_expandedEntries]

/-- The instances stand on the lines of the rows. -/
theorem Outline.map_line_instances {o : Outline} {is : List Instance} (h : o.instances = .ok is) :
    is.map Instance.line = o.dataRows.map Row.line := by
  have rows : o.dataRows.map Row.line = o.dataRows.zipIdx.map fun p => p.1.line := by
    rw [← List.zipIdx_map_fst 0 o.dataRows, List.map_map]
    simp [Function.comp_def]
  rw [rows]
  exact (map_eq_map_of_forall₂ ((instances_eq_ok_iff.1 h).imp fun _ _ shows =>
    shows.2.line.symm)).symm

namespace Item

variable {i : Item} {file : String} {es : List ScenarioEntry}

/-- An outline gives way to its rows. -/
theorem expands_outline {o : Outline} {is : List Instance} (filled : o.instances = .ok is) :
    (Scene.outline o).Expands (.ofOutline file o) (is.map (.ofInstance file o)) := by
  refine .outline (by rw [List.length_map, Outline.length_instances filled]) ?_
  intro j r row
  have place := Outline.getElem?_instances filled j
  rw [row, Option.map_some, Option.map_eq_some_iff] at place
  obtain ⟨i, hi, shown⟩ := place
  obtain ⟨-, shows⟩ := Outline.fill_eq_ok_iff.1 shown.symm
  refine ⟨i.title, shows.title, ?_⟩
  rw [List.getElem?_map, hi, Option.map_some, ScenarioEntry.ofInstance, shows.line, shows.row]

/-- The expanded entries of an item, scene by scene. -/
theorem expandedEntries_groups (h : i.expandedEntries file = .ok es) :
    ∃ groups, es = groups.flatten ∧
      List.Forall₂ (fun p es => Scene.Expands p.1 p.2 es)
        (i.scenes.zip (i.scenarioEntries file)) groups := by
  cases i with
  | scenario s =>
    cases h
    exact ⟨[_], rfl, .cons .scenario .nil⟩
  | rule r =>
    cases h
    refine ⟨(scenarioEntries file (.rule r)).map ([·]), ?_, ?_⟩
    · rw [← List.flatMap_def, List.flatMap_singleton']
    · rw [scenes, scenarioEntries, List.zip_map', List.map_map, List.forall₂_map_left_iff,
        List.forall₂_map_right_iff, List.forall₂_same]
      exact fun s _ => .scenario
  | outline o =>
    obtain ⟨is, filled, rfl⟩ := map_eq_ok_iff.1 h
    exact ⟨[_], (List.append_nil _).symm, .cons (expands_outline filled) .nil⟩

end Item

namespace Feature

variable {f : Feature} {file : String} {es : List ScenarioEntry}

/-- The feature is expanded item by item. -/
theorem expandedEntries_eq_ok_iff : f.expandedEntries file = .ok es ↔
    ∃ groups, List.Forall₂ (fun i es => i.expandedEntries file = .ok es) f.items groups ∧
      groups.flatten = es := by
  simp only [expandedEntries, map_eq_ok_iff, mapM_eq_ok_iff]

/-- The expanded entries of a feature, scene by scene. -/
theorem expandedEntries_groups (h : f.expandedEntries file = .ok es) :
    ∃ groups, es = groups.flatten ∧
      List.Forall₂ (fun p es => Scene.Expands p.1 p.2 es)
        (f.scenes.zip (f.scenarioEntries file)) groups := by
  obtain ⟨own, items, rfl⟩ := expandedEntries_eq_ok_iff.1 h
  rw [scenes, scenarioEntries]
  clear h
  generalize f.items = is at items
  induction items with
  | nil => exact ⟨[], rfl, .nil⟩
  | @cons i es is own first _ ih =>
    obtain ⟨groups, rfl, expanded⟩ := Item.expandedEntries_groups first
    obtain ⟨more, same, others⟩ := ih
    refine ⟨groups ++ more, by rw [List.flatten_cons, List.flatten_append, same], ?_⟩
    rw [List.flatMap_cons, List.flatMap_cons,
      List.zip_append (i.forall₂_scenarioEntries file).length_eq]
    exact List.rel_append expanded others

/-- A feature has an expanded listing if each outline can be filled. -/
theorem exists_expandedEntries_iff :
    (∃ es, f.expandedEntries file = .ok es) ↔ ∀ o ∈ f.outlines, ∃ is, o.instances = .ok is := by
  simp only [← failure?_eq_none_iff, failure?_expandedEntries, List.findSome?_eq_none_iff]

theorem expandedEntries_eq_error_iff {e : FillError} :
    f.expandedEntries file = .error e ↔ ∃ before o after, f.outlines = before ++ o :: after ∧
      (∀ p ∈ before, ∃ is, p.instances = .ok is) ∧ o.instances = .error e := by
  simp only [← failure?_eq_some_iff, ← failure?_eq_none_iff, failure?_expandedEntries,
    List.findSome?_eq_some_iff, and_comm]

end Feature

/-- A file whose outlines cannot all be filled has no part in the listing. -/
theorem Reading.entries?_scenarios_true (d : Document) (file : String) :
    (Reading.scenarios ⟨file, .ok d⟩ true).entries? =
      (d.feature.expandedEntries file).toOption := by
  simp only [scenarios, portion, if_true]
  cases d.feature.expandedEntries file <;> rfl

/-! ## Lines -/

/-- The rows of data are among those of the examples. -/
theorem Outline.dataRows_sublist (o : Outline) :
    (o.dataRows.map Row.line).Sublist o.examples.container.numbers := by
  rw [dataRows, Container.numbers, Examples.container]
  cases o.examples.table with
  | none => exact List.nil_sublist _
  | some t =>
    have others := (List.sublist_cons_self t.first t.others).map Row.line
    exact others.trans (List.sublist_append_right _ _)

namespace Item

variable (i : Item) {file : String} {es : List ScenarioEntry}

/-- The entries of an item stand on the lines of headers. -/
theorem scenarioEntries_sublist (file : String) :
    ((i.scenarioEntries file).map ScenarioEntry.line).Sublist
      (i.containers.flatMap Container.numbers) := by
  have lines : (i.scenarioEntries file).map ScenarioEntry.line =
      (i.containers.filter Container.isScene).map (·.header.line) := by
    rw [← map_container_scenes, List.map_map]
    exact (map_eq_map_of_forall₂ ((i.forall₂_scenarioEntries file).imp fun _ _ shows =>
      shows.line.symm)).symm
  rw [lines]
  refine (List.filter_sublist.map _).trans ?_
  rw [List.map_eq_flatMap]
  exact List.Sublist.flatMap_right _ fun c _ => (List.nil_sublist _).cons_cons c.header.line

/-- The expanded entries of an item stand on the lines of headers and rows. -/
theorem expandedEntries_sublist (h : i.expandedEntries file = .ok es) :
    (es.map ScenarioEntry.line).Sublist (i.containers.flatMap Container.numbers) := by
  cases i with
  | outline o =>
    obtain ⟨is, filled, rfl⟩ := map_eq_ok_iff.1 h
    have rows : (is.map (.ofInstance file o)).map ScenarioEntry.line = o.dataRows.map Row.line := by
      rw [← Outline.map_line_instances filled, List.map_map]
      rfl
    rw [rows, containers, List.flatMap_cons, List.flatMap_singleton]
    exact o.dataRows_sublist.trans (List.sublist_append_right _ _)
  | _ =>
    cases h
    exact scenarioEntries_sublist _ file

end Item

/-- The entries of a text's scenes stand in the order of the lines. -/
theorem Document.scenarioEntries_increasing {text : String} {d : Document}
    (h : ofText text = .ok d) (file : String) :
    ((d.feature.scenarioEntries file).map ScenarioEntry.line).Pairwise (· < ·) := by
  rw [Feature.scenarioEntries, List.map_flatMap, List.flatMap_def]
  exact increasing_of_items h (List.forall₂_map_right_iff.2 (List.forall₂_same.2 fun i _ =>
    i.scenarioEntries_sublist file))

theorem Document.expandedEntries_increasing {text : String} {d : Document}
    (h : ofText text = .ok d) {file : String} {es : List ScenarioEntry}
    (expanded : d.feature.expandedEntries file = .ok es) :
    (es.map ScenarioEntry.line).Pairwise (· < ·) := by
  obtain ⟨groups, items, rfl⟩ := Feature.expandedEntries_eq_ok_iff.1 expanded
  rw [List.map_flatten]
  exact increasing_of_items h (List.forall₂_map_right_iff.2 (items.imp fun i _ own =>
    i.expandedEntries_sublist own))

/-- **The listing of scenarios.** The plain listing of a document cannot fail: it has one entry for
each scenario and each outline, in their order, which shows it, with the title of the rule around
it if there is one. The expanded listing fails if an outline cannot be filled, and then as the first
of these fails. Otherwise it is the plain listing with the entry of each outline replaced by entries
for its rows of data, which are none if there are no such rows. In a text the lines of both listings
increase. -/
theorem Document.scenarios_listed :
    (∀ (d : Document) (file : String),
      let f := d.feature
      (Reading.scenarios ⟨file, .ok d⟩ false).entries? = some (f.scenarioEntries file) ∧
      (Reading.scenarios ⟨file, .ok d⟩ true).entries? = (f.expandedEntries file).toOption ∧
      f.scenes.map Scene.container = f.containers.filter Container.isScene ∧
      (∀ rule s, .scenario rule s ∈ f.scenes ↔ (.scenario s ∈ f.items ∧ rule = none) ∨
        ∃ r, .rule r ∈ f.items ∧ s ∈ r.scenarios ∧ rule = some r.header.title) ∧
      List.Forall₂ (fun sc e => Scene.ShownBy sc file e) f.scenes (f.scenarioEntries file) ∧
      ((∃ es, f.expandedEntries file = .ok es) ↔
        ∀ o ∈ f.outlines, ∃ is, o.instances = .ok is) ∧
      (∀ e, f.expandedEntries file = .error e ↔ ∃ before o after,
        f.outlines = before ++ o :: after ∧
        (∀ p ∈ before, ∃ is, p.instances = .ok is) ∧ o.instances = .error e) ∧
      ∀ es, f.expandedEntries file = .ok es → ∃ groups, es = groups.flatten ∧
        List.Forall₂ (fun p es => Scene.Expands p.1 p.2 es)
          (f.scenes.zip (f.scenarioEntries file)) groups) ∧
    ∀ (text : String) (d : Document), ofText text = .ok d → ∀ file : String,
      ((d.feature.scenarioEntries file).map ScenarioEntry.line).Pairwise (· < ·) ∧
      ∀ es, d.feature.expandedEntries file = .ok es →
        (es.map ScenarioEntry.line).Pairwise (· < ·) := by
  constructor
  · intro d file f
    exact ⟨rfl, Reading.entries?_scenarios_true d file, f.map_container_scenes,
      fun _ _ => f.scenario_mem_scenes_iff, f.forall₂_scenarioEntries file,
      Feature.exists_expandedEntries_iff, fun _ => Feature.expandedEntries_eq_error_iff,
      fun _ => Feature.expandedEntries_groups⟩
  · intro text d read file
    exact ⟨scenarioEntries_increasing read file, fun _ => expandedEntries_increasing read⟩

/-- A text with a scenario in a rule, below an outline with two rows of data. -/
def ruledOutline : String :=
  "Feature: F\nScenario Outline: <a>\nGiven x\nExamples:\n|a|\n|1|\n|2|\nRule: R\nScenario: S\n"

/-- The document of `ruledOutline`. -/
def ruledDocument : Document :=
  ⟨[], ⟨1, "F", [], []⟩, none,
    [.outline ⟨.outline, ⟨2, "<a>", [], []⟩, [⟨.given, 3, "x", [], none⟩],
      .examples, ⟨4, "", [], []⟩, some ⟨⟨5, "|a|"⟩, [⟨6, "|1|"⟩, ⟨7, "|2|"⟩], []⟩⟩,
    .rule ⟨⟨8, "R", [], []⟩, [⟨.scenario, ⟨9, "S", [], []⟩, []⟩]⟩]⟩

/-- The expanded listing of `ruledDocument`. -/
def ruledEntries : List ScenarioEntry :=
  [⟨"f", 6, "Scenario Outline", "1", none, 1, some 0⟩,
    ⟨"f", 7, "Scenario Outline", "2", none, 1, some 1⟩,
    ⟨"f", 9, "Scenario", "S", some "R", 0, none⟩]

theorem ruledOutline_scenarios_listed :
    Document.ofText ruledOutline = .ok ruledDocument ∧
      ruledDocument.feature.expandedEntries "f" = .ok ruledEntries ∧
      (ruledEntries.map ScenarioEntry.line).Pairwise (· < ·) := by
  have read : Document.ofText ruledOutline = .ok ruledDocument := by decide +kernel
  have expanded : ruledDocument.feature.expandedEntries "f" = .ok ruledEntries := by decide +kernel
  exact ⟨read, expanded, (Document.scenarios_listed.2 _ _ read "f").2 _ expanded⟩

end Gherkin
