import Gherkin.Proofs.Text.Trim
import Gherkin.Text.Cells

/-!
# Rows of escaped cells

A cell that is escaped is read back wherever it stands in a row (`cellsFrom_escape`), and so is the
white space around it, which is then trimmed off (`cellsFrom_written`). A bar at the end of a row
closes its last cell; without it, the last cell is what is left, unless nothing is left.
-/

namespace Gherkin.Text

/-- A cell, and the white space around it in a row. -/
structure Padded where
  before : List Char
  cell : List Char
  after : List Char

namespace Padded

/-- White space is around the cell, and the cell neither begins nor ends with any. -/
structure Proper (p : Padded) : Prop where
  before : ∀ c ∈ p.before, isBlank c = true
  after : ∀ c ∈ p.after, isBlank c = true
  first : ∀ c ∈ p.cell.head?, isBlank c = false
  last : ∀ c ∈ p.cell.getLast?, isBlank c = false

theorem proper_iff (p : Padded) :
    p.Proper ↔ p.before.all isBlank ∧ p.after.all isBlank ∧
      p.cell.head?.all (!isBlank ·) ∧ p.cell.getLast?.all (!isBlank ·) := by
  simp only [List.all_eq_true, Option.all_eq_true, Bool.not_eq_true']
  exact ⟨fun ⟨before, after, first, last⟩ => ⟨before, after, first, last⟩,
    fun ⟨before, after, first, last⟩ => ⟨before, after, first, last⟩⟩

instance : DecidablePred Proper := fun p =>
  decidable_of_iff _ p.proper_iff.symm

/-- The cell as it stands between two bars. -/
def written (p : Padded) : List Char :=
  p.before ++ escape p.cell ++ p.after

end Padded

/-- The cells with a bar in front of them and one after each. -/
def barred (ps : List Padded) : List Char :=
  '|' :: ps.flatMap fun p => p.written ++ ['|']

variable {c : Char} {begun cs rest xs ys : List Char} {p : Padded} {ps : List Padded}

/-! ## Trimmed cells -/

theorem trim_of_ends (first : ∀ c ∈ cs.head?, isBlank c = false)
    (last : ∀ c ∈ cs.getLast?, isBlank c = false) : trim cs = cs := by
  have front : ∀ ds : List Char, (∀ c ∈ ds.head?, isBlank c = false) → skipBlank ds = ds := by
    intro ds h
    cases ds with
    | nil => rfl
    | cons d ds => exact skipBlank_cons_of_not_blank (h d rfl)
  have back : trimEnd cs = cs := by
    rw [trimEnd, front cs.reverse (by simpa using last), List.reverse_reverse]
  exact trim_of_trimmed (front cs first) back

theorem Padded.Proper.trim_cell (h : p.Proper) : trim (p.before ++ p.cell ++ p.after) = p.cell := by
  rw [trim_append_of_blank_end h.after, trim_append_of_blank h.before, trim_of_ends h.first h.last]

/-! ## Reading cells -/

/-- A character that is neither a bar nor a backslash stands for itself. -/
theorem cellsFrom_cons (slash : c ≠ '\\') (bar : c ≠ '|') :
    cellsFrom begun (c :: cs) = cellsFrom (c :: begun) cs := by
  rw [cellsFrom] <;> simp_all

theorem cellsFrom_blank (h : ∀ c ∈ xs, isBlank c = true) :
    cellsFrom begun (xs ++ rest) = cellsFrom (xs.reverse ++ begun) rest := by
  induction xs generalizing begun with
  | nil => rfl
  | cons x xs ih =>
    have blank := h x List.mem_cons_self
    have slash : x ≠ '\\' := by
      rintro rfl
      cases blank
    have bar : x ≠ '|' := by
      rintro rfl
      cases blank
    rw [List.cons_append, cellsFrom_cons slash bar,
      ih fun c hc => h c (List.mem_cons_of_mem x hc)]
    simp

/-- What is escaped is read back, whatever comes after it. -/
theorem cellsFrom_escape (cs : List Char) :
    cellsFrom begun (escape cs ++ rest) = cellsFrom (cs.reverse ++ begun) rest := by
  fun_induction escape cs generalizing begun with
  | case1 => rfl
  | case2 cs ih | case3 cs ih | case4 cs ih =>
    rw [List.cons_append, List.cons_append, cellsFrom, ih]
    simp
  | case5 c cs bar slash feed ih =>
    rw [List.cons_append, cellsFrom_cons slash bar, ih]
    simp

theorem cellsFrom_written (h : p.Proper) :
    cellsFrom [] (p.written ++ rest) =
      cellsFrom (p.before ++ p.cell ++ p.after).reverse rest := by
  rw [Padded.written, List.append_assoc, List.append_assoc, cellsFrom_blank h.before,
    cellsFrom_escape, cellsFrom_blank h.after]
  simp

theorem cellsFrom_bar :
    cellsFrom begun ('|' :: rest) = trim begun.reverse :: cellsFrom [] rest := by
  rw [cellsFrom]

theorem cellsFrom_nil :
    cellsFrom begun [] = if trim begun.reverse = [] then [] else [trim begun.reverse] := by
  simp [cellsFrom]

/-- The last cell of a row need not be closed if there is something in it. -/
theorem cellsFrom_last (h : p.Proper) (nonempty : p.cell ≠ []) :
    cellsFrom [] (p.before ++ escape p.cell) = [p.cell] := by
  have read : cellsFrom p.before.reverse (escape p.cell ++ []) =
      cellsFrom (p.cell.reverse ++ p.before.reverse) [] := cellsFrom_escape p.cell
  rw [List.append_nil] at read
  rw [cellsFrom_blank h.before, List.append_nil, read, cellsFrom_nil, ← List.reverse_append,
    List.reverse_reverse, trim_append_of_blank h.before, trim_of_ends h.first h.last,
    if_neg nonempty]

theorem cellsFrom_barred (h : ∀ p ∈ ps, p.Proper) :
    cellsFrom [] (ps.flatMap (fun p => p.written ++ ['|']) ++ rest) =
      ps.map Padded.cell ++ cellsFrom [] rest := by
  induction ps with
  | nil => rfl
  | cons p ps ih =>
    have first := h p List.mem_cons_self
    rw [List.flatMap_cons, List.append_assoc, List.append_assoc, cellsFrom_written first,
      List.singleton_append, cellsFrom_bar, List.reverse_reverse, first.trim_cell,
      ih fun q hq => h q (List.mem_cons_of_mem p hq)]
    rfl

/-! ## The end of a row -/

theorem trimEnd_snoc_of_not_blank (h : isBlank c = false) : trimEnd (xs ++ [c]) = xs ++ [c] := by
  have last := trimEnd_singleton_of_not_blank h
  rw [trimEnd_append_of_ne_nil (by simp [last]), last]

theorem escape_cons (bar : c ≠ '|') (slash : c ≠ '\\') (feed : c ≠ '\n') :
    escape (c :: cs) = c :: escape cs := by
  rw [escape] <;> assumption

theorem escape_append (cs ds : List Char) : escape (cs ++ ds) = escape cs ++ escape ds := by
  fun_induction escape cs with
  | case1 => rfl
  | case2 cs ih | case3 cs ih | case4 cs ih => simp [escape, ih]
  | case5 c cs bar slash feed ih =>
    rw [List.cons_append, escape_cons bar slash feed, ih]
    rfl

theorem escape_eq_nil_iff : escape cs = [] ↔ cs = [] := by
  fun_cases escape cs <;> simp

/-- A cell that does not end with white space is escaped so. -/
theorem trimEnd_escape (h : ∀ c ∈ cs.getLast?, isBlank c = false) :
    trimEnd (escape cs) = escape cs := by
  rcases List.eq_nil_or_concat cs with rfl | ⟨ds, d, rfl⟩
  · rfl
  · have last : isBlank d = false := h d (by simp)
    obtain ⟨xs, x, ends, notBlank⟩ : ∃ xs x, escape [d] = xs ++ [x] ∧ isBlank x = false := by
      by_cases bar : d = '|'
      · exact ⟨['\\'], '|', by rw [bar]; rfl, rfl⟩
      · by_cases slash : d = '\\'
        · exact ⟨['\\'], '\\', by rw [slash]; rfl, rfl⟩
        · refine ⟨[], d, escape_cons bar slash ?_, last⟩
          rintro rfl
          cases last
    rw [List.concat_eq_append, escape_append, ends, ← List.append_assoc]
    exact trimEnd_snoc_of_not_blank notBlank

/-- A row that ends with a bar ends with no white space. -/
theorem trim_barred (ps : List Padded) : trim (barred ps) = barred ps := by
  obtain ⟨xs, ends⟩ : ∃ xs, barred ps = xs ++ ['|'] := by
    rcases List.eq_nil_or_concat ps with rfl | ⟨qs, q, rfl⟩
    · exact ⟨[], rfl⟩
    · exact ⟨barred qs ++ q.written, by simp [barred]⟩
  refine trim_of_trimmed (skipBlank_cons_of_not_blank rfl) ?_
  rw [ends]
  exact trimEnd_snoc_of_not_blank rfl

/-- A row that is not closed ends with its last cell, or before it if that is empty. -/
theorem trim_barred_append (h : p.Proper) (ps : List Padded) :
    trim (barred ps ++ p.written) =
      barred ps ++ if p.cell = [] then [] else p.before ++ escape p.cell := by
  have shorter : trim (barred ps ++ p.written) =
      trim (barred ps ++ (p.before ++ escape p.cell)) := by
    rw [Padded.written, ← List.append_assoc, trim_append_of_blank_end h.after]
  rw [shorter]
  split
  · next empty =>
    rw [empty, escape, List.append_nil, List.append_nil, trim_append_of_blank_end h.before,
      trim_barred]
  · next nonempty =>
    have ends : trimEnd (escape p.cell) = escape p.cell := trimEnd_escape h.last
    refine trim_of_trimmed (skipBlank_cons_of_not_blank rfl) ?_
    rw [← List.append_assoc, trimEnd_append_of_ne_nil, ends]
    rwa [ends, ne_eq, escape_eq_nil_iff]

/-! ## Rows -/

/-- The cells of a row, by what it is when it is trimmed. -/
theorem cells_of_trim (h : ∀ p ∈ ps, p.Proper) {row : String}
    (trimmed : trim row.toList = barred ps ++ rest) :
    cells row = ps.map (fun p => .ofList p.cell) ++ (cellsFrom [] rest).map .ofList := by
  rw [barred, List.cons_append] at trimmed
  simp only [cells, trimmed, cellsFrom_barred h, List.map_append, List.map_map]
  rfl

/-- **Cells.** A row of escaped cells, each with white space around it, is read back cell by cell;
and so it is without its last bar, but that the last cell is lost if it is empty. -/
theorem cells_barred (h : ∀ p ∈ ps, p.Proper) :
    cells (.ofList (barred ps)) = ps.map (fun p => .ofList p.cell) ∧
      ∀ q ∈ ps.getLast?, cells (.ofList (barred ps).dropLast) =
        if q.cell = [] then (ps.map fun p => .ofList p.cell).dropLast
        else ps.map fun p => .ofList p.cell := by
  constructor
  · have trimmed : trim (String.ofList (barred ps)).toList = barred ps ++ [] := by
      rw [String.toList_ofList, trim_barred, List.append_nil]
    rw [cells_of_trim h trimmed, cellsFrom_nil]
    simp
  · intro q last
    obtain ⟨qs, rfl⟩ := List.getLast?_eq_some_iff.1 last
    have proper : q.Proper := h q (by simp)
    have others : ∀ p ∈ qs, p.Proper := fun p hp => h p (List.mem_append_left _ hp)
    have row : (barred (qs ++ [q])).dropLast = barred qs ++ q.written := by
      have ends : barred (qs ++ [q]) = (barred qs ++ q.written) ++ ['|'] := by simp [barred]
      rw [ends, List.dropLast_concat]
    have trimmed : trim (String.ofList (barred qs ++ q.written)).toList =
        barred qs ++ if q.cell = [] then [] else q.before ++ escape q.cell := by
      rw [String.toList_ofList, trim_barred_append proper]
    rw [row, cells_of_trim others trimmed]
    split
    · rw [cellsFrom_nil]
      simp
    · next nonempty =>
      rw [cellsFrom_last proper nonempty]
      simp

/-- A cell with a bar, a backslash at its end and a line feed, and an empty cell. -/
def paddedCells : List Padded :=
  [⟨[' '], "a|b\n c\\".toList, ['\t', ' ']⟩, ⟨[' '], [], []⟩]

theorem paddedCells_barred :
    (∀ p ∈ paddedCells, p.Proper) ∧
      cells "| a\\|b\\n c\\\\\t | |" = ["a|b\n c\\", ""] ∧
      cells "| a\\|b\\n c\\\\\t | " = ["a|b\n c\\"] := by
  have proper : ∀ p ∈ paddedCells, p.Proper := by decide
  obtain ⟨closed, unclosed⟩ := cells_barred proper
  exact ⟨proper, closed, unclosed ⟨[' '], [], []⟩ rfl⟩

end Gherkin.Text
