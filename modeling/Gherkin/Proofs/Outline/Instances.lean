import Gherkin.Proofs.Outline.Filling
import Gherkin.Proofs.Ownership.Documents

/-!
# The instances of an outline, by the lines of its examples

The table of an outline is read from lines below the header of its examples: rows, with comments
among them (`Document.Told.exists_stands`). What stands at a place among the instances goes by the
row at that place alone (`Outline.getElem?_instances`), so each instance can be told by one line of
the document (`Document.instances_by_lines`).
-/

namespace Gherkin

/-! ## Lines of a table -/

/-- Pieces that are no DocStrings are lines. -/
theorem Piece.exists_lines {ps : List Piece} (h : ∀ p ∈ ps, ∀ f, p.kind ≠ .fence f) :
    ∃ ls : List Line, ps = ls.map Piece.line := by
  induction ps with
  | nil => exact ⟨[], rfl⟩
  | cons p ps ih =>
    obtain ⟨ls, rfl⟩ := ih fun q hq => h q (List.mem_cons_of_mem p hq)
    cases p with
    | line l => exact ⟨l :: ls, rfl⟩
    | quote opening => exact absurd rfl (h _ List.mem_cons_self opening)

theorem Piece.filterMap_row?_lines (ls : List Line) :
    (ls.map Piece.line).filterMap Piece.row? = (ls.filter (·.kind = .row)).map Line.row := by
  induction ls with
  | nil => rfl
  | cons l ls ih =>
    by_cases hl : l.kind = .row
    · rw [List.map_cons, List.filterMap_cons_some (row?_line hl), ih, List.filter_cons_of_pos]
      · rfl
      · simp [hl]
    · rw [List.map_cons, List.filterMap_cons_none (row?_eq_none (p := .line l) hl), ih,
        List.filter_cons_of_neg]
      simp [hl]

/-- Where a table of examples stands: below the header of its block are notes, and below these are
its rows, with comments among them. -/
structure Examples.Stands (e : Examples) (t : Table) (head : Line) (above inside : List Line) :
    Prop where
  kind : head.kind = .examples e.keyword
  line : head.number = e.header.line
  notes : ∀ l ∈ above, l.kind = .description ∨ l.kind = .comment
  data : ∀ l ∈ inside, l.kind = .row ∨ l.kind = .comment
  rows : (inside.filter (·.kind = .row)).map Line.row = t.rows

theorem Section.DataInTable.exists_stands {s : Section} (h : s.DataInTable) {e : Examples}
    {t : Table} (told : s.container = e.container) (table : e.table = some t) :
    ∃ above inside below, s.lines = s.header :: above ++ inside ++ below ∧
      e.Stands t s.header above inside := by
  have kind : s.header.kind = .examples e.keyword := congrArg Container.kind told
  have header : s.ownHeader = e.header := congrArg Container.header told
  have read : tableOf s.header.kind s.body = some t := by
    have same := congrArg Container.table told
    simpa [container, kind, Examples.container, table] using same
  have plain : ∀ p ∈ s.body, ∀ f, p.kind ≠ .fence f := by
    intro p hp f
    rcases h.kind p hp with hk | hk | hk <;> simp [hk]
  obtain ⟨ls, lines⟩ := Piece.exists_lines plain
  obtain ⟨above, inside, below, body, rows, outside⟩ := h
  rw [lines] at body
  obtain ⟨front, bs, rfl, cut, rfl⟩ := List.map_eq_append_iff.1 body
  obtain ⟨as, rs, rfl, rfl, rfl⟩ := List.map_eq_append_iff.1 cut
  have notes : ∀ l ∈ as ++ bs, l.kind = .description ∨ l.kind = .comment := by
    intro l hl
    exact outside (.line l) (by simpa using hl)
  have noRows : (as ++ bs).filter (·.kind = .row) = [] := by
    rw [List.filter_eq_nil_iff]
    intro l hl
    rcases notes l hl with hk | hk <;> simp [hk]
  refine ⟨as, rs, bs, ?_, kind, ?_, ?_, ?_, ?_⟩
  · rw [Section.lines, lines]
    simp [List.flatMap_map, Piece.lines]
  · rw [← header]
    rfl
  · exact fun l hl => notes l (List.mem_append_left _ hl)
  · exact fun l hl => rows (.line l) (List.mem_map_of_mem hl)
  · rw [List.filter_append, List.append_eq_nil_iff] at noRows
    rw [← rows_of_tableOf read, lines, Piece.filterMap_row?_lines, List.filter_append,
      List.filter_append, noRows.1, noRows.2]
    simp

/-- The examples of an outline stand in the lines of the document. -/
theorem Document.Told.exists_stands {d : Document} {lead : List Line} {ss : List Section}
    {entries : List Entry} (h : d.Told lead ss entries) {o : Outline}
    (mem : o ∈ d.feature.outlines) {t : Table} (table : o.examples.table = some t) :
    ∃ before head above inside after,
      lead ++ ss.flatMap Section.lines = before ++ head :: above ++ inside ++ after ∧
        o.examples.Stands t head above inside := by
  have entry : .item (.outline o) ∈ entries := by
    obtain ⟨i, hi, outline⟩ := List.mem_filterMap.1 mem
    rw [← h.items] at hi
    obtain ⟨e, he, item⟩ := List.mem_filterMap.1 hi
    cases e <;> cases item
    cases i <;> cases outline
    exact he
  have container : o.examples.container ∈ ss.map Section.container := by
    rw [h.containers]
    refine List.mem_cons_of_mem _ (List.mem_flatMap.2 ⟨_, entry, ?_⟩)
    simp [Entry.containers, Item.containers]
  obtain ⟨s, hs, told⟩ := List.mem_map.1 container
  have kind : s.header.kind = .examples o.examples.keyword := congrArg Container.kind told
  have data : s.DataInTable := by
    have regular := (h.sound s hs).2
    rwa [Section.Regular, kind] at regular
  obtain ⟨above, inside, below, lines, stands⟩ := data.exists_stands told table
  obtain ⟨pre, post, rfl⟩ := List.append_of_mem hs
  refine ⟨lead ++ pre.flatMap Section.lines, s.header, above, inside,
    below ++ post.flatMap Section.lines, ?_, stands⟩
  rw [List.flatMap_append, List.flatMap_cons, lines]
  simp

/-! ## Instances -/

/-- The outline with a table of data in place of its own. -/
def Outline.withTable (o : Outline) (t : Table) : Outline :=
  { o with examples := { o.examples with table := some t } }

namespace Outline

variable {o : Outline} {is : List Instance} {j : Nat}

/-- An instance shows the row at its place. -/
theorem shows_of_getElem? {r : Row} {i : Instance} (filled : o.instances = .ok is)
    (row : o.dataRows[j]? = some r) (shown : is[j]? = some i) : i.Shows o o.columns j r := by
  have place := getElem?_instances filled j
  rw [row, shown] at place
  exact (fill_eq_ok_iff.1 (Option.some.inj place).symm).2

/-- Tables with the same columns and the same row at a place have the same instance there. -/
theorem getElem?_instances_withTable {t t' : Table} {is' : List Instance}
    (table : o.examples.table = some t) (header : t'.first = t.first)
    (row : t'.others[j]? = t.others[j]?) (filled : o.instances = .ok is)
    (filled' : (o.withTable t').instances = .ok is') : is'[j]? = is[j]? := by
  have columns : (o.withTable t').columns = o.columns := by
    simp only [Outline.columns, withTable, table, header]
  have rows : (o.withTable t').dataRows[j]? = o.dataRows[j]? := by
    simp only [dataRows, withTable, table, row]
  have place := getElem?_instances filled j
  have place' := getElem?_instances filled' j
  rw [columns, rows] at place'
  exact Option.map_injective (fun _ _ => Except.ok.inj) (place'.trans place.symm)

end Outline

/-- **Instances.** The instances of an outline of a document are told by the lines of the rows below
its header of examples: the first row names the columns, and each other one gives an instance, which
stands on the line of that row, has its number, and shows the outline with its cells. No other row
has a part in it. -/
theorem Document.instances_by_lines {ls : List Line} {d : Document} {o : Outline}
    {is : List Instance} (read : ofLines ls = .ok d) (mem : o ∈ d.feature.outlines)
    (filled : o.instances = .ok is) :
    (o.examples.table = none ∧ is = []) ∨
      ∃ t before head above inside after first data,
        o.examples.table = some t ∧
        ls = before ++ head :: above ++ inside ++ after ∧
        o.examples.Stands t head above inside ∧
        inside.filter (·.kind = .row) = first :: data ∧
        is.length = data.length ∧
        (∀ (j : Nat) (l : Line) (i : Instance), data[j]? = some l → is[j]? = some i →
          i.Shows o (Text.cells first.payload) j l.row) ∧
        ∀ (t' : Table) (is' : List Instance),
          t'.first = t.first → (o.withTable t').instances = .ok is' →
          ∀ j : Nat, t'.others[j]? = t.others[j]? → is'[j]? = is[j]? := by
  cases table : o.examples.table with
  | none =>
    left
    rw [Outline.instances, table] at filled
    cases filled
    exact ⟨rfl, rfl⟩
  | some t =>
    right
    obtain ⟨lead, ss, entries, rfl, told⟩ := exists_told read
    obtain ⟨before, head, above, inside, after, lines, stands⟩ := told.exists_stands mem table
    obtain ⟨first, data, rows, first_eq, others_eq⟩ :
        ∃ first data, inside.filter (·.kind = .row) = first :: data ∧ first.row = t.first ∧
          data.map Line.row = t.others := by
      have same := stands.rows
      rw [Table.rows, List.map_eq_cons_iff] at same
      exact same
    have columns : o.columns = Text.cells first.payload := by
      simp only [Outline.columns, table, ← first_eq]
      rfl
    have dataRows : o.dataRows = t.others := by
      rw [Outline.dataRows, table]
    refine ⟨t, before, head, above, inside, after, first, data, rfl, lines, stands, rows, ?_, ?_,
      ?_⟩
    · rw [Outline.length_instances filled, dataRows, ← others_eq, List.length_map]
    · intro j l i hl hi
      have row : o.dataRows[j]? = some l.row := by
        rw [dataRows, ← others_eq, List.getElem?_map, hl]
        rfl
      rw [← columns]
      exact Outline.shows_of_getElem? filled row hi
    · intro t' is' header filled' j row
      exact Outline.getElem?_instances_withTable table header row filled filled'

/-- The lines of an outline whose examples have a comment above the rows and one among them. -/
def scatteredLines : List Line :=
  [⟨.feature, "F", 1, "Feature: F"⟩, ⟨.outline .outline, "S <a>", 2, "Scenario Outline: S <a>"⟩,
   ⟨.step .given, "x <a>", 3, "Given x <a>"⟩, ⟨.examples .examples, "", 4, "Examples:"⟩,
   ⟨.comment, "c", 5, "# c"⟩, ⟨.row, "| a |", 6, "| a |"⟩, ⟨.row, "| 1 |", 7, "| 1 |"⟩,
   ⟨.comment, "c", 8, "# c"⟩, ⟨.row, "| 2 |", 9, "| 2 |"⟩]

/-- The outline of `scatteredLines`. -/
def scatteredOutline : Outline :=
  ⟨.outline, ⟨2, "S <a>", [], []⟩, [⟨.given, 3, "x <a>", [], none⟩],
    ⟨.examples, ⟨4, "", [], [⟨5, "c"⟩]⟩,
      some ⟨⟨6, "| a |"⟩, [⟨7, "| 1 |"⟩, ⟨9, "| 2 |"⟩], [⟨8, "c"⟩]⟩⟩⟩

/-- The instances of `scatteredOutline`. -/
def scatteredInstances : List Instance :=
  [⟨"S 1", [⟨.given, 3, "x 1", [], none⟩], 0, 7⟩, ⟨"S 2", [⟨.given, 3, "x 2", [], none⟩], 1, 9⟩]

theorem scatteredLines_instances_by_lines :
    ∃ d, Document.ofLines scatteredLines = .ok d ∧ scatteredOutline ∈ d.feature.outlines ∧
      scatteredOutline.instances = .ok scatteredInstances ∧
      ∃ before head above inside after first data,
        scatteredLines = before ++ head :: above ++ inside ++ after ∧
        inside.filter (·.kind = .row) = first :: data ∧
        scatteredInstances.length = data.length ∧
        ∀ (j : Nat) (l : Line) (i : Instance),
          data[j]? = some l → scatteredInstances[j]? = some i →
            i.Shows scatteredOutline (Text.cells first.payload) j l.row := by
  obtain ⟨d, read, outlines⟩ : ∃ d, Document.ofLines scatteredLines = .ok d ∧
      d.feature.outlines = [scatteredOutline] := ⟨_, rfl, rfl⟩
  have mem : scatteredOutline ∈ d.feature.outlines := by
    rw [outlines]
    exact List.mem_cons_self
  have filled : scatteredOutline.instances = .ok scatteredInstances := by
    decide +kernel
  rcases Document.instances_by_lines read mem filled with
    ⟨none, -⟩ | ⟨_, before, head, above, inside, after, first, data, -, lines, -, rows, length,
      shows, -⟩
  · cases none
  · exact ⟨d, read, mem, filled, before, head, above, inside, after, first, data, lines, rows,
      length, shows⟩

end Gherkin
