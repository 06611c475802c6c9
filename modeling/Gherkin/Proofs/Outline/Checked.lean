import Gherkin.Proofs.Descent.Steps
import Gherkin.Proofs.Outline.Failing

/-!
# Filling with checks

An outline can also be filled from the texts of its rows and their line numbers, each in a list.
Filling walks both lists together, and looks for the place of a name among the columns and then for
the cell at that place. `Checked.instances` breaks off where one list goes on without the other, or
where there is no cell at the place of a column. It gives what `Outline.instances` gives
(`Checked.instances_eq`), so neither ever happens.
-/

namespace Gherkin.Checked

/-- Why filling breaks off. -/
inductive Halt where
  /-- The outline cannot be filled. -/
  | error (why : FillError)
  /-- One of two lists goes on without the other. -/
  | dropped
  /-- A row has no cell at the place of the column. -/
  | noCell (column : String)
  deriving DecidableEq, Repr

/-- Two lists, walked together. -/
def pairs : List α → List β → Except Halt (List (α × β))
  | [], [] => .ok []
  | a :: as, b :: bs => do return (a, b) :: (← pairs as bs)
  | _, _ => .error .dropped

/-- The cell at the place of the first column of that name. -/
def cell (columns cells : List String) (name : String) : Except Halt (Option String) :=
  match columns.idxOf? name with
  | none => .ok none
  | some place =>
    match cells[place]? with
    | some cell => .ok (some cell)
    | none => .error (.noCell name)

/-- Puts cells in place of all names, and nothing in place of those that are no columns, of which
the first one is told; `unknown` is one from before. -/
def replace (columns cells : List String) (unknown : Option String) :
    List Token → Except Halt (List Char × Option String)
  | [] => .ok ([], unknown)
  | .plain c :: ts => do
    let (cs, unknown) ← replace columns cells unknown ts
    return (c :: cs, unknown)
  | .name n :: ts => do
    match ← cell columns cells (.ofList n) with
    | some value =>
      let (cs, unknown) ← replace columns cells unknown ts
      return (value.toList ++ cs, unknown)
    | none => replace columns cells (unknown.or (some (.ofList n))) ts

/-- The text with the cells in it. -/
def substitute (text : String) (columns cells : List String) (line : Nat) : Except Halt String := do
  match ← replace columns cells none (Placeholder.tokens text.toList) with
  | (cs, none) => return .ofList cs
  | (_, some name) => throw (.error (.unknownColumn name line columns))

def fillStep (columns cells : List String) (s : Step) : Except Halt Step := do
  return { s with text := ← substitute s.text columns cells s.line }

/-- The outline filled with the cells of the row on that line, which has the number `index`. -/
def fill (o : Outline) (columns : List String) (index : Nat) (cells : List String) (line : Nat) :
    Except Halt Instance := do
  if cells.length ≠ columns.length then
    throw (.error (.rowWidth line columns.length cells.length))
  let title ← substitute o.header.title columns cells o.header.line
  let steps ← o.steps.mapM (fillStep columns cells)
  return ⟨title, steps, index, line⟩

/-- The outline filled with each row of its examples; the first one names the columns. -/
def instances (o : Outline) : Except Halt (List Instance) :=
  match o.examples.table with
  | none => .ok []
  | some t => do
    match ← pairs (t.grid.rows.map Text.cells) t.grid.rowLines with
    | [] => return []
    | (columns, _) :: rows =>
      rows.zipIdx.mapM fun ((cells, line), index) => fill o columns index cells line

/-! ## No check fails -/

/-- Lists of the same length are walked together to their ends. -/
theorem pairs_eq_zip {as : List α} {bs : List β} (h : as.length = bs.length) :
    pairs as bs = .ok (as.zip bs) := by
  induction as generalizing bs with
  | nil =>
    cases bs with
    | nil => rfl
    | cons b bs => cases h
  | cons a as ih =>
    cases bs with
    | nil => cases h
    | cons b bs =>
      rw [pairs, ih (Nat.succ.inj h)]
      rfl

section Row

variable {columns cells : List String}

open Placeholder in
/-- A row with a cell for each column has one at the place of each. -/
theorem cell_eq (width : cells.length = columns.length) (name : String) :
    cell columns cells name = .ok (cellUnder? columns cells name) := by
  have under := cellUnder?_eq columns cells name.toList
  rw [String.ofList_toList] at under
  rw [cell, under, cell?, String.ofList_toList]
  cases found : columns.idxOf? name with
  | none => rfl
  | some place =>
    obtain ⟨bound, -⟩ := List.idxOf?_eq_some_iff.1 found
    rw [← width] at bound
    simp [bound]

/-- A name that is a column has its cell. -/
theorem cell_of_mem (width : cells.length = columns.length) {name : String}
    (mem : name ∈ columns) : ∃ c, cell columns cells name = .ok (some c) := by
  have found := Placeholder.isNone_cell?_iff width name.toList
  rw [String.ofList_toList] at found
  rw [cell_eq width, ← String.ofList_toList (s := name), Placeholder.cellUnder?_eq]
  cases value : Placeholder.cell? columns cells name.toList with
  | none =>
    rw [value] at found
    exact absurd mem (found.1 rfl)
  | some c => exact ⟨c, rfl⟩

open Placeholder in
/-- All names are replaced, and the one that is told is the first without a cell. -/
theorem replace_eq (width : cells.length = columns.length) (unknown : Option String)
    (ts : List Token) :
    ∃ cs, replace columns cells unknown ts =
        .ok (cs, unknown.or (failure? (Placeholder.fill (cellUnder? columns cells) ts))) ∧
      ∀ filled, Placeholder.fill (cellUnder? columns cells) ts = .ok filled → filled = cs := by
  induction ts generalizing unknown with
  | nil => exact ⟨[], by simp [replace, Placeholder.fill, failure?], fun _ h => by cases h; rfl⟩
  | cons token ts ih =>
    cases token with
    | plain c =>
      obtain ⟨cs, replaced, same⟩ := ih unknown
      refine ⟨c :: cs, ?_, fun filled h => ?_⟩
      · rw [replace, replaced, Placeholder.fill, failure?_map]
        rfl
      · obtain ⟨below, rest, rfl⟩ := map_eq_ok_iff.1 h
        rw [same below rest]
    | name n =>
      cases value : cellUnder? columns cells (.ofList n) with
      | some v =>
        obtain ⟨cs, replaced, same⟩ := ih unknown
        refine ⟨v.toList ++ cs, ?_, fun filled h => ?_⟩
        · simp only [replace, cell_eq width, value, replaced, Placeholder.fill, failure?_map]
          rfl
        · simp only [Placeholder.fill, value] at h
          obtain ⟨below, rest, rfl⟩ := map_eq_ok_iff.1 h
          rw [same below rest]
      | none =>
        obtain ⟨cs, replaced, -⟩ := ih (unknown.or (some (.ofList n)))
        refine ⟨cs, ?_, fun filled h => ?_⟩
        · simp only [replace, cell_eq width, value, replaced, Placeholder.fill, failure?,
            Option.or_assoc, Option.some_or, bind, Except.bind]
        · simp [Placeholder.fill, value] at h

theorem substitute_eq (width : cells.length = columns.length) (text : String) (line : Nat) :
    substitute text columns cells line =
      (Placeholder.substitute text columns cells line).mapError .error := by
  obtain ⟨cs, replaced, same⟩ := replace_eq width none (Placeholder.tokens text.toList)
  rw [substitute, replaced, Placeholder.substitute]
  cases filled : Placeholder.fill (Placeholder.cellUnder? columns cells)
    (Placeholder.tokens text.toList) with
  | ok cs' =>
    rw [same cs' filled]
    rfl
  | error name => rfl

theorem fillStep_eq (width : cells.length = columns.length) (s : Step) :
    fillStep columns cells s = (s.fill columns cells).mapError .error := by
  rw [fillStep, substitute_eq width, Step.fill]
  cases Placeholder.substitute s.text columns cells s.line <;> rfl

end Row

/-- Errors may be renamed before or after a traversal. -/
theorem mapM_mapError {f : α → Except ε β} (g : ε → δ) (as : List α) :
    (as.mapM fun a => (f a).mapError g) = (as.mapM f).mapError g := by
  induction as with
  | nil => rfl
  | cons a as ih =>
    rw [List.mapM_cons, List.mapM_cons, ih]
    cases f a with
    | error e => rfl
    | ok b => cases as.mapM f <;> rfl

theorem fill_eq (o : Outline) (columns : List String) (index : Nat) (r : Row) :
    fill o columns index r.cells r.line = (o.fill columns index r).mapError .error := by
  by_cases width : r.cells.length = columns.length
  · have steps : o.steps.mapM (fillStep columns r.cells) =
        (o.steps.mapM (Step.fill · columns r.cells)).mapError .error := by
      rw [← mapM_mapError, funext (fillStep_eq width)]
    rw [fill, Outline.fill, substitute_eq width, steps, if_neg (not_not.2 width),
      if_neg (not_not.2 width)]
    cases Placeholder.substitute o.header.title columns r.cells o.header.line with
    | error e => rfl
    | ok t => cases o.steps.mapM (Step.fill · columns r.cells) <;> rfl
  · rw [fill, Outline.fill, if_pos width, if_pos width]
    rfl

/-- **Filling drops no row and misses no cell.** Filling with checks is filling. -/
theorem instances_eq (o : Outline) : instances o = o.instances.mapError .error := by
  rw [instances, Outline.instances_eq_mapM, Outline.dataRows, Outline.columns]
  cases o.examples.table with
  | none => rfl
  | some t =>
    have walked : pairs (t.grid.rows.map Text.cells) t.grid.rowLines =
        .ok (t.rows.map fun r => (r.cells, r.line)) := by
      rw [pairs_eq_zip (by simp [Table.grid]), Table.grid, List.map_map, List.zip_map']
      rfl
    have each : (fun p : Row × Nat => fill o t.first.cells p.2 p.1.cells p.1.line) =
        fun p => (o.fill t.first.cells p.2 p.1).mapError .error :=
      funext fun p => fill_eq o t.first.cells p.2 p.1
    have rows : (t.others.map fun r => (r.cells, r.line)).zipIdx.mapM
        (fun ((cells, line), index) => fill o t.first.cells index cells line) =
        t.others.zipIdx.mapM fun p => (o.fill t.first.cells p.2 p.1).mapError .error := by
      rw [List.zipIdx_map, List.mapM_map, ← each]
      simp only [Function.comp_def, Prod.map, id]
    rw [← mapM_mapError, ← rows]
    simp only [walked]
    rfl

end Gherkin.Checked
