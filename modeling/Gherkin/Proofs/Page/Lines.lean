import Gherkin.Page
import Gherkin.Proofs.Draft.Renumbering
import Gherkin.Proofs.Text.Lines

/-!
# Reading a page

The lines of a page's text are those of the page (`Page.ofText_text`): no line of the page has a
line feed in it, so the text is cut where the page ends its lines. A carriage return at the end of
a line is lost.
-/

namespace Gherkin

open Text

/-- The margin of a line at the depth. -/
def indent (depth : Nat) : List Char :=
  List.replicate (2 * depth) ' '

theorem isBlank_of_mem_indent (depth : Nat) : ∀ c ∈ indent depth, isBlank c = true := by
  intro c hc
  rw [List.eq_of_mem_replicate hc]
  decide

theorem not_mem_indent {depth : Nat} : '\n' ∉ indent depth := by
  intro h
  have blank := List.eq_of_mem_replicate h
  cases blank

/-- The line of a text that the line of a page becomes. -/
def PageLine.raw (l : PageLine) : String :=
  .ofList (chomp (indent l.depth ++ l.text.toList))

/-- A line that was read as it is. -/
def Line.Sound (l : Line) : Prop :=
  '\n' ∉ l.raw.toList ∧ Line.read? l.raw l.number = some l

namespace Line

variable {raw : String} {n m : Nat} {raws : List String}

theorem read?_renumber (raw : String) (n m : Nat) :
    (read? raw n).map (·.renumber fun _ => m) = read? raw m := by
  simp only [read?]
  split
  · rfl
  · split <;> rfl

theorem read?_number {l : Line} (h : read? raw n = some l) : l.number = n ∧ l.raw = raw := by
  simp only [read?] at h
  split at h
  · cases h
  · split at h <;> cases h <;> exact ⟨rfl, rfl⟩

/-- Reading lines, their numbers aside. -/
theorem readFrom_renumber (n m : Nat) (raws : List String) :
    (readFrom n raws).map (·.renumber fun _ => m) = raws.filterMap (read? · m) := by
  induction raws generalizing n with
  | nil => rfl
  | cons raw raws ih =>
    have same := read?_renumber raw n m
    cases h : read? raw n with
    | none =>
      rw [h, Option.map_none] at same
      simp [readFrom, h, ih, ← same]
    | some l =>
      rw [h, Option.map_some] at same
      simp [readFrom, h, ih, ← same]

theorem sound_of_mem_readFrom {l : Line} (oneLine : ∀ raw ∈ raws, '\n' ∉ raw.toList)
    (h : l ∈ readFrom n raws) : l.Sound := by
  induction raws generalizing n with
  | nil => cases h
  | cons raw raws ih =>
    have rest : ∀ m, l ∈ readFrom m raws → l.Sound := by
      intro m hm
      exact ih (fun r hr => oneLine r (List.mem_cons_of_mem raw hr)) hm
    simp only [readFrom] at h
    split at h
    · next k found =>
      rcases List.mem_cons.1 h with rfl | h
      · obtain ⟨rfl, rfl⟩ := read?_number found
        exact ⟨oneLine _ List.mem_cons_self, found⟩
      · exact rest _ h
    · exact rest _ h

/-- Every line of a text was read as it is. -/
theorem sound_of_mem_ofText {text : String} {l : Line} (h : l ∈ ofText text) : l.Sound := by
  refine sound_of_mem_readFrom ?_ h
  intro raw hraw
  obtain ⟨cs, hcs, rfl⟩ := List.mem_map.1 hraw
  rw [String.toList_ofList]
  exact not_mem_of_mem_linesFrom (by simp) hcs

end Line

namespace Page

variable {p q : Page}

/-- The lines of the page as they are read, with no numbers. -/
def lines (p : Page) : List Line :=
  p.filterMap fun l => Line.read? l.raw 0

@[simp] theorem lines_append : lines (p ++ q) = lines p ++ lines q := by
  simp [lines]

@[simp] theorem lines_nil : lines [] = [] := rfl

/-- No line of the page has a line feed in it. -/
def OneLiners (p : Page) : Prop :=
  ∀ l ∈ p, '\n' ∉ l.text.toList

theorem lines_text (h : p.OneLiners) : Text.lines p.text = p.map PageLine.raw := by
  have cut : p.flatMap PageLine.written =
      (p.map fun l => indent l.depth ++ l.text.toList).flatMap (· ++ ['\n']) := by
    rw [List.flatMap_map]
    rfl
  have oneLine : ∀ cs ∈ p.map (fun l => indent l.depth ++ l.text.toList), '\n' ∉ cs := by
    intro cs hcs
    obtain ⟨l, hl, rfl⟩ := List.mem_map.1 hcs
    rw [List.mem_append, not_or]
    exact ⟨not_mem_indent, h l hl⟩
  rw [Text.lines, Page.text, String.toList_ofList, cut, linesFrom_flatMap oneLine]
  simp [PageLine.raw]

/-- Reading the text of a page is reading its lines. -/
theorem ofText_text (h : p.OneLiners) :
    (Line.ofText p.text).map (·.renumber fun _ => 0) = p.lines := by
  rw [Line.ofText, Line.readAll, lines_text h, Line.readFrom_renumber, List.filterMap_map]
  rfl

/-- The page some levels deeper. -/
def deepen (depth : Nat) (p : Page) : Page :=
  p.map fun l => { l with depth := depth + l.depth }

@[simp] theorem deepen_append {depth : Nat} :
    deepen depth (p ++ q) = deepen depth p ++ deepen depth q := by
  simp [deepen]

@[simp] theorem deepen_nil {depth : Nat} : deepen depth [] = [] := rfl

theorem deepen_nested {depth : Nat} : deepen depth (nested p) = deepen (depth + 1) p := by
  simp only [deepen, nested, List.map_map]
  apply List.map_congr_left
  intro l _
  simp only [Function.comp, PageLine.nest, PageLine.mk.injEq, and_true]
  omega

theorem deepen_zero : deepen 0 p = p := by
  simp [deepen]

end Page

end Gherkin
