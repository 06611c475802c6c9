import Gherkin.Document.Layout

/-!
# Carriage returns and lengths of pages

Two measures of a page that can be read from its text: how many carriage returns stand in it, and
how long it is. Nesting a page keeps the first and adds two characters a line to the second.
-/

namespace Gherkin

namespace Page

variable {p q : Page}

/-- How many carriage returns stand in the page. -/
def returns (p : Page) : Nat :=
  (p.flatMap fun l => l.text.toList).count '\r'

@[simp] theorem returns_append : returns (p ++ q) = returns p + returns q := by
  simp [returns]

@[simp] theorem returns_nil : returns [] = 0 := rfl

@[simp] theorem returns_nested : returns (nested p) = returns p := by
  simp [returns, nested, List.flatMap_map, PageLine.nest]

/-- Pages with at most as many carriage returns as others, part by part, have as many together only
if each part has. -/
theorem returns_flatMap_le {page page' : α → Page} {xs : List α}
    (le : ∀ x ∈ xs, returns (page x) ≤ returns (page' x)) :
    returns (xs.flatMap page) ≤ returns (xs.flatMap page') ∧
      (returns (xs.flatMap page) = returns (xs.flatMap page') →
        ∀ x ∈ xs, returns (page x) = returns (page' x)) := by
  induction xs with
  | nil => simp
  | cons x xs ih =>
    obtain ⟨least, each⟩ := ih fun y hy => le y (List.mem_cons_of_mem x hy)
    have first : returns (page x) ≤ returns (page' x) := le x List.mem_cons_self
    simp only [List.flatMap_cons, returns_append]
    refine ⟨by omega, fun same => ?_⟩
    rw [List.forall_mem_cons]
    exact ⟨by omega, each (by omega)⟩

theorem count_return_text : p.text.toList.count '\r' = returns p := by
  have line : ∀ l : PageLine, l.written.count '\r' = l.text.toList.count '\r' := by
    intro l
    have margin : (List.replicate (2 * l.depth) ' ').count '\r' = 0 := by
      rw [List.count_replicate]
      rfl
    rw [PageLine.written, List.count_append, List.count_append, margin]
    simp
  rw [text, String.toList_ofList]
  induction p with
  | nil => rfl
  | cons l p ih =>
    rw [List.flatMap_cons, List.count_append, ih, line, returns, returns, List.flatMap_cons,
      List.count_append]

/-- How long the text of the page is. -/
def extent (p : Page) : Nat :=
  (p.flatMap PageLine.written).length

@[simp] theorem extent_append : extent (p ++ q) = extent p + extent q := by
  simp only [extent, List.flatMap_append, List.length_append]

theorem extent_nested : extent (nested p) = extent p + 2 * p.length := by
  induction p with
  | nil => rfl
  | cons l p ih =>
    have longer : l.nest.written.length = l.written.length + 2 := by
      simp [PageLine.written, PageLine.nest]
      omega
    simp only [nested, extent, List.map_cons, List.flatMap_cons, List.length_append,
      List.length_cons] at ih ⊢
    omega

theorem length_text : p.text.toList.length = extent p := by
  rw [text, String.toList_ofList, extent]

end Page

end Gherkin
