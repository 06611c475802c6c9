import Gherkin.Proofs.Outline.Filling

/-!
# When an outline cannot be filled

Whether a name has a value does not hang on the row, as long as the row has a cell for each column
(`Outline.failure?_fill`). So the names are judged once, at the first row, and only the widths of
the rows come before and after that (`Outline.Defect`).
-/

namespace Gherkin

open Placeholder

/-- A name in a text of an outline, and the line of that text. -/
structure Use where
  name : String
  line : Nat
  deriving DecidableEq, Repr

/-- The names in a text on the line, from left to right. -/
def Placeholder.usesIn (text : String) (line : Nat) : List Use :=
  (Weave.of text.toList).names.map fun n => ⟨.ofList n, line⟩

namespace Outline

/-- The names in the title, and after them those in the steps. -/
def uses (o : Outline) : List Use :=
  usesIn o.header.title o.header.line ++ o.steps.flatMap fun s => usesIn s.text s.line

/-- The rows `rs` keep the outline from being filled for the reason `e`: the first row has a wrong
width; or a name is no column, whatever the rows hold; or a later row has a wrong width. -/
inductive Defect (o : Outline) (columns : List String) : (rs : List Row) → (e : FillError) → Prop
  | firstWidth {r : Row} {rs : List Row} (wrong : r.cells.length ≠ columns.length) :
      Defect o columns (r :: rs) (.rowWidth r.line columns.length r.cells.length)
  | name {r : Row} {rs : List Row} {u : Use} (width : r.cells.length = columns.length)
      (first : o.uses.find? (·.name ∉ columns) = some u) :
      Defect o columns (r :: rs) (.unknownColumn u.name u.line columns)
  | laterWidth {r s : Row} {rs : List Row} (width : r.cells.length = columns.length)
      (known : ∀ u ∈ o.uses, u.name ∈ columns)
      (first : rs.find? (·.cells.length ≠ columns.length) = some s) :
      Defect o columns (r :: rs) (.rowWidth s.line columns.length s.cells.length)

end Outline

variable {columns cells : List String}

/-! ## Names that are no columns -/

/-- The error at the first of the names that is no column. -/
def unknown? (columns : List String) (us : List Use) : Option FillError :=
  (us.find? (·.name ∉ columns)).map fun u => .unknownColumn u.name u.line columns

theorem unknown?_eq_none_iff {us : List Use} :
    unknown? columns us = none ↔ ∀ u ∈ us, u.name ∈ columns := by
  simp [unknown?]

theorem unknown?_append (us vs : List Use) :
    unknown? columns (us ++ vs) = (unknown? columns us).or (unknown? columns vs) := by
  rw [unknown?, List.find?_append, Option.map_or, unknown?, unknown?]

theorem unknown?_flatMap (f : α → List Use) (as : List α) :
    unknown? columns (as.flatMap f) = as.findSome? fun a => unknown? columns (f a) := by
  rw [unknown?, List.find?_flatMap, List.map_findSome?]
  rfl

/-! ## One row -/

/-- A row with a cell for each column has one for each name that is a column. -/
theorem Placeholder.isNone_cell?_iff (width : cells.length = columns.length) (n : List Char) :
    (cell? columns cells n).isNone = true ↔ String.ofList n ∉ columns := by
  rw [cell?, ← List.idxOf?_eq_none_iff]
  cases found : columns.idxOf? (.ofList n) with
  | none => simp
  | some p =>
    obtain ⟨bound, -⟩ := List.idxOf?_eq_some_iff.1 found
    rw [← width] at bound
    simp [bound]

theorem Placeholder.failure?_substitute (width : cells.length = columns.length) (text : String)
    (line : Nat) :
    failure? (substitute text columns cells line) = unknown? columns (usesIn text line) := by
  have same : (fun n => (cell? columns cells n).isNone) =
      fun n => decide (String.ofList n ∉ columns) := by
    funext n
    rw [Bool.eq_iff_iff, decide_eq_true_iff]
    exact isNone_cell?_iff width n
  ext e
  rw [failure?_eq_some_iff, substitute_eq_error_iff, same, unknown?, usesIn, List.find?_map,
    Option.map_map, Option.map_eq_some_iff]
  simp only [eq_comm]
  rfl

theorem Step.failure?_fill (width : cells.length = columns.length) (s : Step) :
    failure? (s.fill columns cells) = unknown? columns (usesIn s.text s.line) := by
  rw [← failure?_substitute width, fill]
  cases substitute s.text columns cells s.line <;> rfl

namespace Outline

variable (o : Outline)

theorem failure?_fill_of_ne {index : Nat} {r : Row} (wrong : r.cells.length ≠ columns.length) :
    failure? (o.fill columns index r) =
      some (.rowWidth r.line columns.length r.cells.length) := by
  rw [fill, if_pos wrong]
  rfl

theorem failure?_fill_of_eq {index : Nat} {r : Row} (width : r.cells.length = columns.length) :
    failure? (o.fill columns index r) = unknown? columns o.uses := by
  have title := failure?_substitute width o.header.title o.header.line
  have steps : failure? (o.steps.mapM (·.fill columns r.cells)) =
      unknown? columns (o.steps.flatMap fun s => usesIn s.text s.line) := by
    rw [failure?_mapM, unknown?_flatMap]
    simp only [Step.failure?_fill width]
  rw [uses, unknown?_append, ← title, ← steps, fill, if_neg (not_not.2 width)]
  cases substitute o.header.title columns r.cells o.header.line with
  | error e => rfl
  | ok t => cases o.steps.mapM (·.fill columns r.cells) <;> rfl

theorem failure?_fill (columns : List String) (index : Nat) (r : Row) :
    failure? (o.fill columns index r) =
      if r.cells.length = columns.length then unknown? columns o.uses
      else some (.rowWidth r.line columns.length r.cells.length) := by
  split
  · next width => exact failure?_fill_of_eq o width
  · next wrong => exact failure?_fill_of_ne o wrong

theorem failure?_fill_eq_none_iff {index : Nat} {r : Row} :
    failure? (o.fill columns index r) = none ↔
      r.cells.length = columns.length ∧ ∀ u ∈ o.uses, u.name ∈ columns := by
  rw [failure?_fill, ← unknown?_eq_none_iff]
  by_cases width : r.cells.length = columns.length <;> simp [width]

/-! ## All rows -/

theorem failure?_instances :
    failure? o.instances = o.dataRows.findSome? fun r => failure? (o.fill o.columns 0 r) := by
  -- the number of a row does not matter to its failure
  have unnumbered : (fun p : Row × Nat => failure? (o.fill o.columns p.2 p.1)) =
      (fun r => failure? (o.fill o.columns 0 r)) ∘ Prod.fst := by
    funext p
    rw [Function.comp_apply, failure?_fill, failure?_fill]
  rw [instances_eq_mapM, failure?_mapM, unnumbered, ← List.findSome?_map, List.zipIdx_map_fst]

/-- If each name is a column, then rows fail by their widths alone. -/
theorem findSome?_failure?_fill (known : ∀ u ∈ o.uses, u.name ∈ columns) (rs : List Row) :
    rs.findSome? (fun r => failure? (o.fill columns 0 r)) =
      (rs.find? (·.cells.length ≠ columns.length)).map fun r =>
        .rowWidth r.line columns.length r.cells.length := by
  simp only [failure?_fill, unknown?_eq_none_iff.2 known]
  induction rs with
  | nil => rfl
  | cons r rs ih =>
    by_cases width : r.cells.length = columns.length
    · simpa [width] using ih
    · simp [width]

variable {o} {rs : List Row} {e : FillError}

theorem Defect.findSome? (h : o.Defect columns rs e) :
    rs.findSome? (fun r => failure? (o.fill columns 0 r)) = some e := by
  cases h with
  | firstWidth wrong => rw [List.findSome?_cons, failure?_fill_of_ne o wrong]
  | name width first =>
    rw [List.findSome?_cons, failure?_fill_of_eq o width, unknown?, first]
    rfl
  | laterWidth width known first =>
    rw [List.findSome?_cons, (failure?_fill_eq_none_iff o).2 ⟨width, known⟩,
      findSome?_failure?_fill o known, first]
    rfl

theorem defect_of_findSome? (h : rs.findSome? (fun r => failure? (o.fill columns 0 r)) = some e) :
    o.Defect columns rs e := by
  cases rs with
  | nil => cases h
  | cons r rs =>
    rw [List.findSome?_cons] at h
    by_cases width : r.cells.length = columns.length
    · rw [failure?_fill_of_eq o width] at h
      cases names : unknown? columns o.uses with
      | some e' =>
        obtain ⟨u, first, rfl⟩ := Option.map_eq_some_iff.1 names
        rw [names] at h
        cases h
        exact .name width first
      | none =>
        have known := unknown?_eq_none_iff.1 names
        simp only [names, findSome?_failure?_fill o known] at h
        obtain ⟨s, first, rfl⟩ := Option.map_eq_some_iff.1 h
        exact .laterWidth width known first
    · rw [failure?_fill_of_ne o width] at h
      cases h
      exact .firstWidth width

theorem findSome?_eq_none_iff :
    rs.findSome? (fun r => failure? (o.fill columns 0 r)) = none ↔
      rs = [] ∨ (∀ r ∈ rs, r.cells.length = columns.length) ∧ ∀ u ∈ o.uses, u.name ∈ columns := by
  simp only [List.findSome?_eq_none_iff, failure?_fill_eq_none_iff o]
  rcases rs with - | ⟨r, rs⟩
  · simp
  · constructor
    · intro each
      exact .inr ⟨fun r hr => (each r hr).1, (each r List.mem_cons_self).2⟩
    · rintro (⟨⟨⟩⟩ | ⟨width, known⟩)
      exact fun r hr => ⟨width r hr, known⟩

/-- **When and how filling fails.** An outline can be filled if it has no table or no rows of data,
or if each row has a cell for each column and each name is a column; then there is an instance for
each row. Otherwise the error is that of the defect: a wrong width of the first row, the first name
that is no column, or the first wrong width of a later row. -/
theorem instances_outcome (o : Outline) :
    ((∃ is, o.instances = .ok is) ↔
      o.examples.table = none ∨ ∃ t, o.examples.table = some t ∧
        (t.others = [] ∨ (∀ r ∈ t.others, r.cells.length = t.first.cells.length) ∧
          ∀ u ∈ o.uses, u.name ∈ t.first.cells)) ∧
    (∀ is, o.instances = .ok is → is.length = o.dataRows.length) ∧
    ∀ e, o.instances = .error e ↔
      ∃ t, o.examples.table = some t ∧ o.Defect t.first.cells t.others e := by
  refine ⟨?_, fun is => length_instances, ?_⟩
  · rw [← failure?_eq_none_iff, failure?_instances, findSome?_eq_none_iff, dataRows, columns]
    cases o.examples.table <;> simp
  · intro e
    have defect {columns : List String} {rs : List Row} :
        rs.findSome? (fun r => failure? (o.fill columns 0 r)) = some e ↔ o.Defect columns rs e :=
      ⟨defect_of_findSome?, Defect.findSome?⟩
    rw [← failure?_eq_some_iff, failure?_instances, defect, dataRows, columns]
    cases o.examples.table with
    | none =>
      constructor
      · intro h
        cases h
      · rintro ⟨t, absent, -⟩
        cases absent
    | some t => simp

end Outline

/-- An outline with a step, and examples of two columns. -/
def pairedOutline (text : String) (rows : List Row) : Outline :=
  ⟨.outline, ⟨2, "S <a>", [], []⟩, [⟨.given, 3, text, [], none⟩],
    ⟨.examples, ⟨4, "", [], []⟩, some ⟨⟨5, "| a | b |"⟩, rows, []⟩⟩⟩

/-- Two rows for `pairedOutline`, the second one too short. -/
def shortRows : List Row :=
  [⟨6, "| 1 | 2 |"⟩, ⟨8, "| 1 |"⟩]

theorem pairedOutline_instances_outcome :
    (pairedOutline "x > <b> <c>" shortRows).instances =
        .error (.unknownColumn "c" 3 ["a", "b"]) ∧
      (pairedOutline "x > <b>" shortRows).instances = .error (.rowWidth 8 2 1) ∧
      ∃ is, (pairedOutline "x > <b>" [⟨6, "| 1 | \\| |"⟩]).instances = .ok is ∧ is.length = 1 := by
  have known : ∀ rows, ∀ u ∈ (pairedOutline "x > <b>" rows).uses, u.name ∈ ["a", "b"] := by
    intro rows
    have uses : (pairedOutline "x > <b>" rows).uses = (pairedOutline "x > <b>" []).uses := rfl
    rw [uses]
    decide +kernel
  have unknown : (pairedOutline "x > <b> <c>" shortRows).Defect ["a", "b"] shortRows
      (.unknownColumn "c" 3 ["a", "b"]) :=
    .name (u := ⟨"c", 3⟩) rfl (by decide +kernel)
  have short : (pairedOutline "x > <b>" shortRows).Defect ["a", "b"] shortRows
      (.rowWidth 8 2 1) :=
    .laterWidth (s := ⟨8, "| 1 |"⟩) rfl (known shortRows) (by decide +kernel)
  refine ⟨?_, ?_, ?_⟩
  · exact ((Outline.instances_outcome _).2.2 _).2 ⟨_, rfl, unknown⟩
  · exact ((Outline.instances_outcome _).2.2 _).2 ⟨_, rfl, short⟩
  · obtain ⟨fills, length, -⟩ :=
      Outline.instances_outcome (pairedOutline "x > <b>" [⟨6, "| 1 | \\| |"⟩])
    obtain ⟨is, filled⟩ := fills.2 (.inr ⟨_, rfl, .inr ⟨by decide, known _⟩⟩)
    exact ⟨is, filled, length is filled⟩

end Gherkin
