import Gherkin.Listing.Steps
import Gherkin.Proofs.Ownership.Numbers

/-!
# Steps that are listed

The listing of steps goes through a feature group by group, and has an entry for each step that the
feature has, in the same order (`Feature.forall₂_stepEntries`). What a conjunction means is carried
along within a group: after any steps, the keyword that is remembered is that of the nearest step
that is no conjunction (`StepKeyword.Nearest.push`), so the meaning of a step is told by the steps
before it in its container (`StepKeyword.getElem?_resolveFrom`) and by nothing else.
-/

namespace Gherkin

namespace StepKeyword

variable {ks more : List StepKeyword} {k : StepKeyword} {b : Option StepKeyword} {j : Nat}

/-- The nearest `Given`, `When` or `Then`, from the last of the keywords backwards. -/
inductive Nearest : (ks : List StepKeyword) → (nearest? : Option StepKeyword) → Prop where
  | found {before conjunctions : List StepKeyword} {k : StepKeyword}
      (primary : k ∈ [.given, .when, .then_])
      (later : ∀ c ∈ conjunctions, c ∈ [.and, .but, .star]) :
      Nearest (before ++ k :: conjunctions) (some k)
  | none {ks : List StepKeyword} (all : ∀ c ∈ ks, c ∈ [.and, .but, .star]) : Nearest ks none

theorem isConjunction_eq_true_iff : k.isConjunction = true ↔ k ∈ [.and, .but, .star] := by
  cases k <;> decide

theorem isConjunction_eq_false_iff : k.isConjunction = false ↔ k ∈ [.given, .when, .then_] := by
  cases k <;> decide

theorem Nearest.primary (h : Nearest ks (some k)) : k ∈ [.given, .when, .then_] := by
  cases h with
  | found primary _ => exact primary

/-- One more step is remembered as the nearest one, or leaves it as it is. -/
theorem Nearest.push (h : Nearest ks b) (k : StepKeyword) :
    Nearest (ks ++ [k]) (k.remember b) := by
  cases conjunction : k.isConjunction with
  | false =>
    rw [remember, conjunction, if_neg (by decide)]
    exact .found (isConjunction_eq_false_iff.1 conjunction) (by simp)
  | true =>
    rw [remember, conjunction, if_pos rfl]
    have longer : ∀ cs : List StepKeyword, (∀ c ∈ cs, c ∈ [.and, .but, .star]) →
        ∀ c ∈ cs ++ [k], c ∈ [.and, .but, .star] := by
      intro cs all c hc
      rcases List.mem_append.1 hc with hc | hc
      · exact all c hc
      · rw [List.mem_singleton.1 hc]
        exact isConjunction_eq_true_iff.1 conjunction
    cases h with
    | found primary later =>
      rw [List.append_assoc, List.cons_append]
      exact .found primary (longer _ later)
    | none all => exact .none (longer _ all)

/-- A step means what is remembered once it is read. -/
theorem resolve_eq (b : Option StepKeyword) (k : StepKeyword) :
    k.resolve b = (k.remember b).getD .given := by
  rw [resolve, remember]
  split <;> rfl

/-- What the step at a place means, after the steps `ks` and those before it in the group. -/
theorem getElem?_resolveFrom (h : Nearest ks b) (place : more[j]? = some k) :
    ∃ nearest?, Nearest (ks ++ more.take (j + 1)) nearest? ∧
      (resolveFrom b more)[j]? = some (nearest?.getD .given) := by
  induction more generalizing ks b j with
  | nil => cases place
  | cons m more ih =>
    have next := h.push m
    cases j with
    | zero => exact ⟨_, next, by simp [resolveFrom, resolve_eq]⟩
    | succ j =>
      obtain ⟨nearest?, told, found⟩ := ih next place
      exact ⟨nearest?, by simpa using told, found⟩

/-- No meaning is a conjunction. -/
theorem Nearest.meaning (h : Nearest ks b) : b.getD .given ∈ [.given, .when, .then_] := by
  cases b with
  | none => decide
  | some k => exact h.primary

end StepKeyword

open StepKeyword

namespace StepEntry

variable {file : String} {steps : List Step}

/-- The entry shows the step. -/
structure Shows (e : StepEntry) (file : String) (s : Step) : Prop where
  file : e.file = file
  line : e.line = s.line
  keyword : e.keyword = s.keyword.text
  text : e.text = s.text
  parameters : e.parameters = s.parameters

theorem length_ofSteps : (ofSteps file steps).length = steps.length := by
  simp [ofSteps]

/-- The entry at a place shows the step there, with the meaning that the steps up to it give. -/
theorem getElem?_ofSteps (file : String) {j : Nat} {s : Step} (place : steps[j]? = some s) :
    ∃ e nearest?, (ofSteps file steps)[j]? = some e ∧ e.Shows file s ∧
      Nearest ((steps.take (j + 1)).map Step.keyword) nearest? ∧
      e.resolved = (nearest?.getD .given).text := by
  have start : Nearest [] none := .none (by simp)
  have keyword : (steps.map Step.keyword)[j]? = some s.keyword := by
    rw [List.getElem?_map, place, Option.map_some]
  obtain ⟨nearest?, told, found⟩ := getElem?_resolveFrom start keyword
  refine ⟨ofStep file s (nearest?.getD .given), nearest?, ?_, ⟨rfl, rfl, rfl, rfl, rfl⟩, ?_, rfl⟩
  · rw [ofSteps, List.getElem?_zipWith, place, found]
  · simpa [List.map_take] using told

theorem forall₂_zipWith {R : α → γ → Prop} {f : α → β → γ} (h : ∀ a b, R a (f a b)) {as : List α}
    {bs : List β} (length : bs.length = as.length) :
    List.Forall₂ R as (List.zipWith f as bs) := by
  induction as generalizing bs with
  | nil => simp
  | cons a as ih =>
    cases bs with
    | nil => cases length
    | cons b bs => exact .cons (h a b) (ih (Nat.succ.inj length))

theorem forall₂_ofSteps (file : String) (steps : List Step) :
    List.Forall₂ (fun s e => Shows e file s) steps (ofSteps file steps) :=
  forall₂_zipWith (fun _ _ => ⟨rfl, rfl, rfl, rfl, rfl⟩) (by simp)

/-- A group of entries for each group of steps. -/
theorem forall₂_flatMap_ofSteps (file : String) (groups : List (List Step)) :
    List.Forall₂ (fun s e => Shows e file s) groups.flatten (groups.flatMap (ofSteps file)) := by
  induction groups with
  | nil => exact .nil
  | cons steps groups ih => exact List.rel_append (forall₂_ofSteps file steps) ih

/-- The meaning of an entry is no conjunction. -/
theorem resolved_mem {e : StepEntry} (h : e ∈ ofSteps file steps) :
    e.resolved ∈ ["Given", "When", "Then"] := by
  obtain ⟨j, found⟩ := List.mem_iff_getElem?.1 h
  obtain ⟨bound, -⟩ := List.getElem?_eq_some_iff.1 found
  rw [length_ofSteps] at bound
  obtain ⟨e', nearest?, same, -, told, resolved⟩ :=
    getElem?_ofSteps file (List.getElem?_eq_getElem bound)
  rw [found, Option.some.injEq] at same
  subst same
  rw [resolved]
  exact List.mem_map_of_mem (f := StepKeyword.text) told.meaning

end StepEntry

/-! ## Features -/

namespace Item

/-- The groups of an item are the steps of its containers, in their order. -/
theorem flatMap_stepGroups (f : List Step → List α) (nothing : f [] = []) (i : Item) :
    i.stepGroups.flatMap f = i.containers.flatMap fun c => f c.steps := by
  cases i with
  | scenario s => rfl
  | rule r => simp [stepGroups, containers, nothing, List.flatMap_map, Scenario.container]
  | outline o => simp [stepGroups, containers, nothing, Examples.container]

/-- The steps of an item, group by group. -/
theorem flatMap_id_stepGroups (i : Item) : i.stepGroups.flatMap id = i.steps := by
  cases i with
  | rule r => simp [stepGroups, steps, List.flatMap_map]
  | _ => simp [stepGroups, steps]

/-- The steps of the item have the numbers of its containers among others. -/
theorem steps_sublist (i : Item) :
    (i.steps.map Step.line).Sublist (i.containers.flatMap Container.numbers) := by
  rw [← flatMap_id_stepGroups, flatMap_stepGroups id rfl, List.map_flatMap]
  exact List.Sublist.flatMap_right _ fun c _ => (List.sublist_append_left _ _).cons c.header.line

end Item

namespace Feature

variable (f : Feature) (file : String)

/-- There is an entry for each step, and in the same order. -/
theorem forall₂_stepEntries :
    List.Forall₂ (fun s e => StepEntry.Shows e file s) f.steps (f.stepEntries file) := by
  have groups : f.steps = (f.backgroundSteps :: f.items.flatMap Item.stepGroups).flatten := by
    rw [steps, List.flatten_cons, ← List.flatMap_id, List.flatMap_assoc]
    simp only [Item.flatMap_id_stepGroups]
  rw [groups, stepEntries]
  exact StepEntry.forall₂_flatMap_ofSteps file _

/-- Each container has a group of entries of its own. -/
theorem stepEntries_eq :
    f.stepEntries file = f.containers.flatMap fun c => StepEntry.ofSteps file c.steps := by
  have background : StepEntry.ofSteps file f.backgroundSteps =
      (f.background.toList.map Background.container).flatMap fun c =>
        StepEntry.ofSteps file c.steps := by
    cases hb : f.background <;> simp [backgroundSteps, hb, StepEntry.ofSteps, Background.container]
  rw [stepEntries, containers, List.flatMap_cons, List.flatMap_append, background,
    List.flatMap_assoc, List.flatMap_assoc]
  simp only [Item.flatMap_stepGroups (StepEntry.ofSteps file) rfl]

/-- The entries stand on the lines of the steps. -/
theorem map_line_stepEntries :
    (f.stepEntries file).map StepEntry.line = f.steps.map Step.line :=
  (map_eq_map_of_forall₂ ((f.forall₂_stepEntries file).imp fun _ _ shows =>
    shows.line.symm)).symm

end Feature

/-- The lines of the steps of a text's items increase, and so do those of its background. -/
theorem Document.steps_increasing {text : String} {d : Document} (h : ofText text = .ok d) :
    (d.feature.backgroundSteps.map Step.line).Pairwise (· < ·) ∧
      ((d.feature.items.flatMap Item.steps).map Step.line).Pairwise (· < ·) := by
  constructor
  · have background := (numbers_increasing h).1
    cases hb : d.feature.background with
    | none => simp [Feature.backgroundSteps, hb]
    | some b =>
      simp only [hb, Option.toList_some, List.map_cons, List.map_nil, List.flatMap_singleton]
        at background
      simp only [Feature.backgroundSteps, hb]
      exact background.sublist ((List.sublist_append_left _ _).cons _)
  · rw [List.map_flatMap, List.flatMap_def]
    exact increasing_of_items h (List.forall₂_map_right_iff.2 (List.forall₂_same.2 fun i _ =>
      i.steps_sublist))

/-- **The listing of steps.** The listing has one entry for each step of a feature, in the order of
its steps, and shows the step. It is put together container by container: what a step means is the
keyword of the nearest step at or before it, in the same container, that is no conjunction, or else
`Given`; so it is `Given`, `When` or `Then`. In a text the lines of the background's entries
increase, and so do those of the other entries. -/
theorem Feature.steps_listed :
    (∀ (f : Feature) (file : String),
      List.Forall₂ (fun s e => StepEntry.Shows e file s) f.steps (f.stepEntries file) ∧
      f.stepEntries file = f.containers.flatMap (fun c => StepEntry.ofSteps file c.steps) ∧
      (∀ c ∈ f.containers, (StepEntry.ofSteps file c.steps).length = c.steps.length ∧
        ∀ (j : Nat) (s : Step), c.steps[j]? = some s → ∃ e nearest?,
          (StepEntry.ofSteps file c.steps)[j]? = some e ∧ e.Shows file s ∧
          Nearest ((c.steps.take (j + 1)).map Step.keyword) nearest? ∧
          e.resolved = (nearest?.getD .given).text) ∧
      ∀ e ∈ f.stepEntries file, e.resolved ∈ ["Given", "When", "Then"]) ∧
    ∀ (text : String) (d : Document), Document.ofText text = .ok d → ∀ file : String,
      let entries := d.feature.stepEntries file
      let first := d.feature.backgroundSteps.length
      ((entries.take first).map StepEntry.line).Pairwise (· < ·) ∧
        ((entries.drop first).map StepEntry.line).Pairwise (· < ·) := by
  refine ⟨fun f file => ⟨f.forall₂_stepEntries file, f.stepEntries_eq file, ?_, ?_⟩, ?_⟩
  · exact fun c _ => ⟨StepEntry.length_ofSteps, fun j s => StepEntry.getElem?_ofSteps file⟩
  · intro e he
    rw [stepEntries_eq] at he
    obtain ⟨c, -, he⟩ := List.mem_flatMap.1 he
    exact StepEntry.resolved_mem he
  · intro text d read file
    obtain ⟨background, items⟩ := Document.steps_increasing read
    dsimp only
    rw [List.map_take, List.map_drop, map_line_stepEntries, Feature.steps, List.map_append]
    have length : d.feature.backgroundSteps.length =
        (d.feature.backgroundSteps.map Step.line).length := (List.length_map _).symm
    rw [length, List.take_left, List.drop_left]
    exact ⟨background, items⟩

/-- A text whose background stands below a scenario, with conjunctions in both. -/
def lateBackground : String :=
  "Feature: F\nScenario: S\nWhen a\nAnd b\nBackground:\n* c\n"

theorem lateBackground_steps_listed :
    ∃ d, Document.ofText lateBackground = .ok d ∧
      (d.feature.stepEntries "f").map (fun e => (e.line, e.keyword, e.resolved)) =
        [(6, "*", "Given"), (3, "When", "When"), (4, "And", "When")] ∧
      (((d.feature.stepEntries "f").drop 1).map StepEntry.line).Pairwise (· < ·) := by
  obtain ⟨d, read, listed, one⟩ : ∃ d, Document.ofText lateBackground = .ok d ∧
      (d.feature.stepEntries "f").map (fun e => (e.line, e.keyword, e.resolved)) =
        [(6, "*", "Given"), (3, "When", "When"), (4, "And", "When")] ∧
      d.feature.backgroundSteps.length = 1 := ⟨_, rfl, rfl, rfl⟩
  obtain ⟨-, increasing⟩ := Feature.steps_listed.2 _ _ read "f"
  rw [one] at increasing
  exact ⟨d, read, listed, increasing⟩

end Gherkin
