import Gherkin.Proofs.Descent.Tables
import Gherkin.Proofs.Outline.Checked
import Gherkin.Proofs.Violation.Viable

/-!
# No check fails

Whatever the lines are, a descent through them ends as reading line by line does, and none of its
checks fails. The tables of the document have a line number for each row, and the outlines of the
document are filled without a row dropped or a cell missed.
-/

namespace Gherkin

namespace Descent

/-- A check of a descent has failed: a header of the wrong kind, a second value in one place, or
rows and line numbers that do not go together. -/
inductive Halt.Failed : Halt → Prop where
  | kind (line : Nat) (expected : String) (found : Kind) :
      Failed (.violation (.kindMismatch line expected found))
  | occupied (slot : Slot) : Failed (.occupied slot)
  | unpaired : Failed .unpaired

/-- A descent breaks off for what breaks the grammar alone. -/
theorem not_failed {ls : List Line} {h : Halt} (broken : document ls = .error h) : ¬ h.Failed := by
  rw [document_eq] at broken
  cases read : Document.ofLines ls with
  | ok d =>
    rw [read] at broken
    cases broken
  | error v =>
    rw [read] at broken
    cases broken
    intro failed
    cases failed
    exact Document.ofLines_ne_kindMismatch read

end Descent

/-- **Internal checks never fail.** For all lines, the descent gives what reading line by line
gives: no header is of the wrong kind, and no value is put where there is one. In a document that
is read, each table has rows, as many line numbers as rows and the line of its first row, and texts
and line numbers of its rows are those of rows that follow each other in the lines. Its outlines are
filled with no row dropped, and in a row with a cell for each column no column lacks its cell. -/
theorem Document.checks_never_fail (ls : List Line) :
    Descent.document ls = (ofLines ls).mapError .violation ∧
      (∀ h, Descent.document ls = .error h → ¬ h.Failed) ∧
      (∀ line expected found, ofLines ls ≠ .error (.kindMismatch line expected found)) ∧
      ∀ d, ofLines ls = .ok d →
        (∀ t, Element.table t ∈ d.elements → t.grid.Paired ∧ t.grid.StandsIn ls) ∧
        ∀ o ∈ d.feature.outlines,
          Checked.instances o = o.instances.mapError .error ∧
          ∀ t, o.examples.table = some t → ∀ r ∈ t.others, r.cells.length = t.first.cells.length →
            ∀ name ∈ t.first.cells,
              ∃ c, Checked.cell t.first.cells r.cells name = .ok (some c) := by
  refine ⟨Descent.document_eq ls, fun h => Descent.not_failed, fun _ _ _ => ofLines_ne_kindMismatch,
    fun d read => ⟨fun t mem => ⟨t.paired_grid, ?_⟩, fun o _ => ⟨Checked.instances_eq o, ?_⟩⟩⟩
  · have descended : Descent.document ls = .ok d := by
      rw [Descent.document_eq, read]
      rfl
    exact Descent.tables_standIn descended mem
  · intro t _ r _ width name mem
    exact Checked.cell_of_mem width mem

/-- The lines of a feature whose background has a DocString, and whose outline has a table below its
step and one below its examples. Their numbers are in no order. -/
def tabledLines : List Line :=
  [⟨.feature, "F", 1, "Feature: F"⟩, ⟨.background, "", 2, "Background:"⟩,
   ⟨.step .given, "x", 3, "Given x"⟩, ⟨.fence .quotes, "", 3, "\"\"\""⟩,
   ⟨.row, "|a|", 5, "|a|"⟩, ⟨.fence .backticks, "", 6, "```"⟩,
   ⟨.outline .outline, "S", 2, "Scenario Outline: S"⟩, ⟨.step .given, "x <b>", 8, "Given x <b>"⟩,
   ⟨.row, "|c|", 4, "|c|"⟩, ⟨.comment, "c", 9, "# c"⟩, ⟨.row, "|d|", 4, "|d|"⟩,
   ⟨.examples .examples, "", 10, "Examples:"⟩, ⟨.row, "|a|b|", 8, "|a|b|"⟩,
   ⟨.row, "|1|2|", 7, "|1|2|"⟩]

/-- The table below the step in `tabledLines`. -/
def tabledStepTable : Table :=
  ⟨⟨4, "|c|"⟩, [⟨4, "|d|"⟩], [⟨9, "c"⟩]⟩

/-- The outline of `tabledLines`. -/
def tabledOutline : Outline :=
  ⟨.outline, ⟨2, "S", [], []⟩, [⟨.given, 8, "x <b>", [], some (.table tabledStepTable)⟩],
    ⟨.examples, ⟨10, "", [], []⟩, some ⟨⟨8, "|a|b|"⟩, [⟨7, "|1|2|"⟩], []⟩⟩⟩

theorem tabledLines_checks_never_fail :
    ∃ d, Document.ofLines tabledLines = .ok d ∧ Descent.document tabledLines = .ok d ∧
      Element.table tabledStepTable ∈ d.elements ∧ tabledStepTable.grid.StandsIn tabledLines ∧
      tabledOutline ∈ d.feature.outlines ∧
      Checked.instances tabledOutline = tabledOutline.instances.mapError .error ∧
      ∃ c, Checked.cell ["a", "b"] ["1", "2"] "b" = .ok (some c) := by
  obtain ⟨d, read, outlines, table⟩ : ∃ d, Document.ofLines tabledLines = .ok d ∧
      d.feature.outlines = [tabledOutline] ∧ Element.table tabledStepTable ∈ d.elements :=
    ⟨_, rfl, rfl, by decide⟩
  have outline : tabledOutline ∈ d.feature.outlines := by
    rw [outlines]
    exact List.mem_cons_self
  obtain ⟨same, -, -, sound⟩ := Document.checks_never_fail tabledLines
  obtain ⟨tables, filled⟩ := sound d read
  obtain ⟨instances, cells⟩ := filled tabledOutline outline
  refine ⟨d, read, by rw [same, read]; rfl, table, (tables _ table).2, outline, instances, ?_⟩
  have columns : (Row.mk 8 "|a|b|").cells = ["a", "b"] := by decide +kernel
  have row : (Row.mk 7 "|1|2|").cells = ["1", "2"] := by decide +kernel
  have found := cells _ rfl ⟨7, "|1|2|"⟩ List.mem_cons_self
  rw [columns, row] at found
  exact found rfl "b" (by decide)

end Gherkin
