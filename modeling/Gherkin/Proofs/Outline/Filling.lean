import Gherkin.Proofs.Placeholder.Weave
import Gherkin.Proofs.Results

/-!
# What filling gives

An outline is filled row by row and step by step, each by `mapM` in `Except`: there is a result if
each part has one (`mapM_eq_ok_iff`), and otherwise the failure is that of the first part that fails
(`failure?_mapM`). An instance shows the outline with the values of its row
(`Outline.fill_eq_ok_iff`), and the instances of an outline are those of its rows, which are
numbered from 0 on (`Outline.instances_eq_ok_iff`).
-/

namespace Gherkin

/-! ## One row -/

section Rows

variable {columns cells : List String}

/-- The text has the cell of its column in place of each name: of columns with one name, the first
one counts. -/
def Placeholder.FilledWith (columns cells : List String) (text filled : String) : Prop :=
  ∃ vs, List.Forall₂ (fun n v => cell? columns cells n = some v) (Weave.of text.toList).names vs ∧
    filled = .ofList ((Weave.of text.toList).filled vs)

/-- The step differs from the one of the outline in its text at most, which is filled; its
parameters are the names that are left there. -/
structure Step.FilledWith (columns cells : List String) (s s' : Step) : Prop where
  text : Placeholder.FilledWith columns cells s.text s'.text
  keyword : s'.keyword = s.keyword
  line : s'.line = s.line
  comments : s'.comments = s.comments
  argument : s'.argument = s.argument
  parameters :
    s'.parameters = (Placeholder.Weave.of s'.text.toList).names.eraseDups.map .ofList

/-- The instance shows the outline with the cells of the row, which has the number `index`. -/
structure Instance.Shows (i : Instance) (o : Outline) (columns : List String) (index : Nat)
    (r : Row) : Prop where
  row : i.row = index
  line : i.line = r.line
  title : Placeholder.FilledWith columns r.cells o.header.title i.title
  steps : List.Forall₂ (Step.FilledWith columns r.cells) o.steps i.steps

theorem Step.fill_eq_ok_iff {s s' : Step} :
    s.fill columns cells = .ok s' ↔ s.FilledWith columns cells s' := by
  constructor
  · intro filled
    cases text : Placeholder.substitute s.text columns cells s.line with
    | error e => simp [fill, text, bind, Except.bind] at filled
    | ok t =>
      simp only [fill, text, bind, Except.bind, pure, Except.pure, Except.ok.injEq] at filled
      subst filled
      exact ⟨Placeholder.substitute_eq_ok_iff.1 text, rfl, rfl, rfl, rfl, Placeholder.names_eq⟩
  · intro h
    have text : Placeholder.substitute s.text columns cells s.line = .ok s'.text :=
      Placeholder.substitute_eq_ok_iff.2 h.text
    have same : s' = { s with text := s'.text } := by
      cases s'
      simp only [Step.mk.injEq, true_and]
      exact ⟨h.keyword, h.line, h.comments, h.argument⟩
    rw [fill, text, same]
    rfl

theorem Outline.fill_eq_ok_iff {o : Outline} {index : Nat} {r : Row} {i : Instance} :
    o.fill columns index r = .ok i ↔
      r.cells.length = columns.length ∧ i.Shows o columns index r := by
  have steps : ∀ ss, o.steps.mapM (·.fill columns r.cells) = .ok ss ↔
      List.Forall₂ (Step.FilledWith columns r.cells) o.steps ss := by
    intro ss
    simp only [mapM_eq_ok_iff, Step.fill_eq_ok_iff]
  by_cases width : r.cells.length = columns.length
  · constructor
    · intro filled
      refine ⟨width, ?_⟩
      simp only [fill, width, ne_eq, not_true_eq_false, if_false, bind, Except.bind, pure,
        Except.pure] at filled
      cases title : Placeholder.substitute o.header.title columns r.cells o.header.line with
      | error e => simp [title] at filled
      | ok t =>
        cases all : o.steps.mapM (·.fill columns r.cells) with
        | error e => simp [title, all] at filled
        | ok ss =>
          simp only [title, all, Except.ok.injEq] at filled
          subst filled
          exact ⟨rfl, rfl, Placeholder.substitute_eq_ok_iff.1 title, (steps ss).1 all⟩
    · rintro ⟨-, row, line, title, shown⟩
      have title : Placeholder.substitute o.header.title columns r.cells o.header.line =
          .ok i.title := Placeholder.substitute_eq_ok_iff.2 title
      simp only [fill, width, ne_eq, not_true_eq_false, if_false, title, (steps i.steps).2 shown,
        bind, Except.bind, pure, Except.pure, ← row, ← line]
  · simp [fill, width, bind, Except.bind, throw, throwThe, MonadExceptOf.throw]

end Rows

/-! ## All rows -/

namespace Outline

variable {o : Outline} {is : List Instance}

theorem fillFrom_eq_mapM (columns : List String) (index : Nat) (rows : List Row) :
    o.fillFrom columns index rows =
      (rows.zipIdx index).mapM fun p => o.fill columns p.2 p.1 := by
  induction rows generalizing index with
  | nil => rfl
  | cons r rows ih => rw [fillFrom, ih, List.zipIdx_cons, List.mapM_cons]

/-- The rows below the first one, which names the columns. -/
def dataRows (o : Outline) : List Row :=
  match o.examples.table with
  | none => []
  | some t => t.others

/-- The names of the columns. -/
def columns (o : Outline) : List String :=
  match o.examples.table with
  | none => []
  | some t => t.first.cells

theorem instances_eq_mapM :
    o.instances = o.dataRows.zipIdx.mapM fun p => o.fill o.columns p.2 p.1 := by
  rw [instances, dataRows, columns]
  cases o.examples.table with
  | none => rfl
  | some t => exact fillFrom_eq_mapM t.first.cells 0 t.others

/-- There is an instance for each row, in the order of the rows, and it shows that row. -/
theorem instances_eq_ok_iff :
    o.instances = .ok is ↔
      List.Forall₂ (fun (p : Row × Nat) i => p.1.cells.length = o.columns.length ∧
        i.Shows o o.columns p.2 p.1) o.dataRows.zipIdx is := by
  rw [instances_eq_mapM, mapM_eq_ok_iff]
  simp only [fill_eq_ok_iff]

theorem length_instances (h : o.instances = .ok is) : is.length = o.dataRows.length := by
  rw [← (instances_eq_ok_iff.1 h).length_eq, List.length_zipIdx]

/-- What stands at a place among the instances goes by the row at that place. -/
theorem getElem?_instances (h : o.instances = .ok is) (j : Nat) :
    is[j]?.map .ok = o.dataRows[j]?.map fun r => o.fill o.columns j r := by
  rw [instances_eq_mapM] at h
  rw [getElem?_of_mapM_eq_ok h, List.getElem?_zipIdx, Option.map_map]
  simp [Function.comp_def]

end Outline

end Gherkin
