import Gherkin.Proofs.Disk.SameTree
import Gherkin.Proofs.Line.Shapes
import Gherkin.Proofs.Page.Lines
import Gherkin.Proofs.Text.LineEnds

/-!
# Blank lines and line ends

A blank line is read as no line, so what a text is read as depends on its other lines only: under
the rank that each of them has among these, two texts with the same ones are the same document or
break the grammar in the same way. Line ends with carriage returns and a byte order mark in front
of a file do not even change the numbers.
-/

namespace Gherkin

namespace Text

/-- The lines of a text that are not blank. -/
def content (s : String) : List String :=
  (lines s).filter fun raw => !isAllBlank raw

/-- How many of the first `n` lines are not blank: for one that is not, its rank among these. -/
def rank (s : String) (n : Nat) : Nat :=
  ((lines s).take n).countP fun raw => !isAllBlank raw

end Text

open Text

namespace Line

variable {f : Nat → Nat} {raw : String} {raws : List String}

theorem read?_of_blank (h : isAllBlank raw = true) (n : Nat) : read? raw n = none := by
  have nothing : trim raw.toList = [] := trim_eq_nil_iff.2 h
  simp [read?, nothing]

/-- A line that is not blank keeps all but its number. -/
theorem read?_of_not_blank (h : isAllBlank raw = false) (n : Nat) :
    ∃ l, read? raw n = some l ∧ read? raw (f n) = some (l.renumber f) := by
  have something : trim raw.toList ≠ [] := by
    rw [Ne, trim_eq_nil_iff, ← isAllBlank, h]
    decide
  obtain ⟨l, hl⟩ := exists_read? something n
  refine ⟨l, hl, ?_⟩
  rw [← read?_renumber raw n (f n), hl, Option.map_some]
  simp [renumber, (read?_number hl).1]

/-- Lines under their ranks are those of the content. -/
theorem readFrom_ranked {k m : Nat}
    (h : ∀ j, f (k + j) = m + (raws.take j).countP fun raw => !isAllBlank raw) :
    (readFrom (k + 1) raws).map (·.renumber f) =
      readFrom (m + 1) (raws.filter fun raw => !isAllBlank raw) := by
  induction raws generalizing k m with
  | nil => rfl
  | cons raw raws ih =>
    have later : ∀ j, f (k + 1 + j) =
        (if isAllBlank raw then m else m + 1) + (raws.take j).countP fun raw => !isAllBlank raw := by
      intro j
      have next := h (j + 1)
      rw [List.take_succ_cons, List.countP_cons] at next
      rw [Nat.add_right_comm, Nat.add_assoc, next]
      cases isAllBlank raw <;> simp [Nat.add_assoc, Nat.add_comm]
    cases blank : isAllBlank raw with
    | true =>
      rw [blank, if_pos rfl] at later
      rw [List.filter_cons_of_neg (by simp [blank]), ← ih later, readFrom, read?_of_blank blank]
    | false =>
      rw [blank, if_neg (by decide)] at later
      have here : f (k + 1) = m + 1 := later 0
      obtain ⟨l, read, ranked⟩ := read?_of_not_blank (f := f) blank (k + 1)
      rw [here] at ranked
      rw [List.filter_cons_of_pos (by simp [blank]), readFrom, readFrom, read, ranked]
      simp [ih later]

/-- The lines of a text under their ranks are those of its content. -/
theorem ofText_ranked (s : String) :
    (ofText s).map (·.renumber (rank s)) = readAll (content s) := by
  refine readFrom_ranked (k := 0) (m := 0) ?_
  simp [rank]

end Line

namespace Document

/-- What a text is read as, under the ranks of its lines, is told by its content. -/
theorem ofText_ranked (s : String) :
    renumbered (rank s) (·.renumber (rank s)) (ofText s) = ofLines (Line.readAll (content s)) := by
  rw [ofText, ← ofLines_renumber, Line.ofText_ranked]

/-- A file is loaded as the document of its text, less a byte order mark. -/
theorem load_of_read {d : Disk} {path s : String} (h : d.read path = .ok s.toUTF8) :
    d.load path =
      (ofLines (Line.readAll (lines (withoutMark s)))).mapError (LoadError.invalid path) := by
  have read : d.readLines path = .ok (lines (withoutMark s)) := by
    rw [Disk.readLines, h]
    exact linesOfBytes_toUTF8 s
  rw [Disk.load, read]
  dsimp only
  cases ofLines (Line.readAll (lines (withoutMark s))) <;> rfl

/-- **Blank lines and line ends.** Texts with the same lines, blank ones aside, are the same
document under the ranks of their lines, or break the grammar in the same way. A text without
carriage returns before its line feeds and without a byte order mark is loaded from a file as it is
read, and so it is if the file has a mark in front, or carriage returns before the line feeds. -/
theorem ofText_of_content :
    (∀ s t : String, content s = content t →
      renumbered (rank s) (·.renumber (rank s)) (ofText s) =
        renumbered (rank t) (·.renumber (rank t)) (ofText t)) ∧
    ∀ t : String, Bare t.toList → t.toList.head? ≠ some '\ufeff' →
      ∀ (d : Disk) (path : String), ∀ written ∈ [t, withMark t, withReturns t],
        d.read path = .ok written.toUTF8 →
          d.load path = (ofText t).mapError (LoadError.invalid path) := by
  refine ⟨?_, ?_⟩
  · intro s t same
    rw [ofText_ranked, ofText_ranked, same]
  · intro t bare unmarked d path written among read
    have same : lines (withoutMark written) = lines t := by
      simp only [List.mem_cons, List.not_mem_nil, or_false] at among
      rcases among with rfl | rfl | rfl
      · rw [withoutMark_eq unmarked]
      · rw [withoutMark_withMark]
      · have first : (withReturns t).toList.head? ≠ some '\ufeff' := by
          simpa [withReturns] using head?_returned unmarked
        rw [withoutMark_eq first, lines_withReturns bare]
    rw [load_of_read read, same]
    rfl

end Document

/-- A text without blank lines. -/
def denseText : String :=
  "Feature: F\nScenario: S\n  Given x\n"

/-- The same lines with blank ones among them. -/
def sparseText : String :=
  "\nFeature: F\nScenario: S\n \t\n  Given x\n"

/-- A disk with the text in a file. -/
def textDisk (s : String) : Disk :=
  ⟨[(["a"], .file s.toUTF8)], []⟩

theorem read_textDisk (s : String) : (textDisk s).read "a" = .ok s.toUTF8 :=
  Disk.read_of_find (Disk.find_name (by decide) rfl rfl (by simp))

theorem sparseText_content :
    content sparseText = content denseText ∧
    renumbered (rank sparseText) (·.renumber (rank sparseText)) (Document.ofText sparseText) =
      renumbered (rank denseText) (·.renumber (rank denseText)) (Document.ofText denseText) ∧
    (textDisk (withMark denseText)).load "a" =
      (Document.ofText denseText).mapError (LoadError.invalid "a") ∧
    (textDisk (withReturns denseText)).load "a" =
      (Document.ofText denseText).mapError (LoadError.invalid "a") := by
  have same : content sparseText = content denseText := by decide +kernel
  have bare : Bare denseText.toList := Bare.of_notMem (by decide +kernel)
  have unmarked : denseText.toList.head? ≠ some '\ufeff' := by decide +kernel
  obtain ⟨blanks, ends⟩ := Document.ofText_of_content
  exact ⟨same, blanks _ _ same,
    ends _ bare unmarked _ _ _ (by simp) (read_textDisk _),
    ends _ bare unmarked _ _ _ (by simp) (read_textDisk _)⟩

end Gherkin
