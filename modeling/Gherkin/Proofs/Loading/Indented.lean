import Gherkin.Proofs.Draft.Recasting
import Gherkin.Proofs.Line.Shapes
import Gherkin.Proofs.Text.Lines

/-!
# Texts that are indented

White space in front of every line of a text is read as nothing but a part of its descriptions: a
line keeps its kind and its payload, and a line of a DocString keeps what it has beyond the margin
of the opening fence. So an indented text is the same document, or breaks the grammar in the same
way (`Document.ofText_indented`).
-/

namespace Gherkin

namespace Text

/-- The characters with `w` in front of each line; `fresh` says that a line begins with them. -/
def indentFrom (w : List Char) (fresh : Bool) : List Char → List Char
  | [] => []
  | c :: cs => (if fresh then w else []) ++ c :: indentFrom w (c = '\n') cs

/-- The text with `w` in front of each line. -/
def indented (w s : String) : String :=
  .ofList (indentFrom w.toList true s.toList)

/-- White space that ends no line. -/
structure Indentation (w : String) : Prop where
  blank : ∀ c ∈ w.toList, isBlank c = true
  noFeed : '\n' ∉ w.toList
  noReturn : '\r' ∉ w.toList

variable {w begun cs : List Char}

/-- Characters without line feed go into the line that has begun. -/
theorem linesFrom_append_of_not_mem (h : '\n' ∉ w) :
    linesFrom begun (w ++ cs) = linesFrom (w.reverse ++ begun) cs := by
  induction w generalizing begun with
  | nil => rfl
  | cons c w ih =>
    rw [List.mem_cons, not_or] at h
    rw [List.cons_append, linesFrom, if_neg (Ne.symm h.1), ih h.2]
    simp

theorem chomp_append_of_not_mem (h : '\r' ∉ w) : chomp (w ++ cs) = w ++ chomp cs := by
  by_cases empty : cs = []
  · subst empty
    rw [List.append_nil, chomp_nil, List.append_nil, chomp_eq_self_iff]
    intro last
    exact h (List.mem_of_getLast? last)
  · exact chomp_append empty

/-- Lines of an indented text are indented. Where a line has begun, so has the indented one. -/
theorem linesFrom_indentFrom (noFeed : '\n' ∉ w) (noReturn : '\r' ∉ w) (begun cs : List Char) :
    linesFrom (if begun.isEmpty then [] else begun ++ w.reverse) (indentFrom w begun.isEmpty cs) =
      (linesFrom begun cs).map (w ++ ·) := by
  induction cs generalizing begun with
  | nil => cases begun <;> simp [indentFrom, linesFrom]
  | cons c cs ih =>
    have inside : linesFrom (if begun.isEmpty then [] else begun ++ w.reverse)
        (indentFrom w begun.isEmpty (c :: cs)) =
        linesFrom (begun ++ w.reverse) (c :: indentFrom w (c = '\n') cs) := by
      cases begun with
      | nil => simp [indentFrom, linesFrom_append_of_not_mem noFeed]
      | cons => rfl
    have ended : endedLine (begun ++ w.reverse) = w ++ endedLine begun := by
      have same : chomp (w ++ begun.reverse) = w ++ chomp begun.reverse :=
        chomp_append_of_not_mem noReturn
      simpa [chomp] using same
    rw [inside, linesFrom, linesFrom]
    by_cases hc : c = '\n'
    · have rest := ih []
      simp only [List.isEmpty_nil, if_true] at rest
      simp [hc, ended, rest]
    · have rest := ih (c :: begun)
      simp only [List.isEmpty_cons, Bool.false_eq_true, if_false] at rest
      simp [hc, ← rest]

/-- The lines of an indented text. -/
theorem lines_indented {w : String} (h : Indentation w) (s : String) :
    lines (indented w s) = (lines s).map (w ++ ·) := by
  have cut := linesFrom_indentFrom h.noFeed h.noReturn [] s.toList
  simp only [List.isEmpty_nil, if_true] at cut
  rw [lines, indented, String.toList_ofList, cut, lines, List.map_map, List.map_map]
  refine List.map_congr_left fun l _ => ?_
  simp [String.ofList_append]

end Text

open Text

/-- A change of what is in front of each line: descriptions begin with it, and margins are as much
longer. -/
def Recast.indent (w : String) : Recast where
  free := (w ++ ·)
  margin := (w.toList.length + ·)

variable {w : String}

/-- An indented line that is not blank is read as the line recast; a blank one is blank. -/
theorem Line.read?_indented (h : Indentation w) (raw : String) (n : Nat) :
    read? raw n = none ∧ read? (w ++ raw) n = none ∨
      ∃ l m, read? raw n = some l ∧ read? (w ++ raw) n = some m ∧ (Recast.indent w).Casts l m := by
  have same : trim (w ++ raw).toList = trim raw.toList := by
    rw [String.toList_append, trim_append_of_blank h.blank]
  have kept := Recast.kind_eq_self (r := Recast.indent w) rfl rfl rfl
  have margin : Text.margin (w ++ raw).toList = w.toList.length + Text.margin raw.toList := by
    rw [String.toList_append, margin_append_of_blank h.blank]
  have quoted : ∀ width, dropMargin (w.toList.length + width) (w ++ raw).toList =
      dropMargin width raw.toList := by
    intro width
    rw [String.toList_append, dropMargin_append_of_blank h.blank]
  by_cases blank : trim raw.toList = []
  · left
    simp only [read?, same, blank, List.isEmpty_nil, if_true, and_self]
  · right
    cases shape : Kind.ofShape? (trim raw.toList) with
    | none =>
      have shapeless := Kind.ofShape?_eq_none_iff.1 shape
      refine ⟨_, _, read?_of_no_shape blank shapeless,
        read?_of_no_shape (by rwa [same]) (by rwa [same]), ?_⟩
      exact ⟨(kept _).symm, rfl, by simp, fun _ => rfl, margin, quoted⟩
    | some found =>
      obtain ⟨kind, payload⟩ := found
      obtain ⟨mem, read⟩ := Kind.ofShape?_eq_some_iff.1 shape
      refine ⟨_, _, read?_of_payload? read, read?_of_payload? (by rwa [same]), ?_⟩
      refine ⟨(kept _).symm, rfl, fun _ => rfl, ?_, margin, quoted⟩
      rintro rfl
      cases read

theorem Line.forall₂_readFrom_indented (h : Indentation w) (n : Nat) (raws : List String) :
    List.Forall₂ (Recast.indent w).Casts (readFrom n raws) (readFrom n (raws.map (w ++ ·))) := by
  induction raws generalizing n with
  | nil => exact .nil
  | cons raw raws ih =>
    rw [List.map_cons, readFrom, readFrom]
    rcases read?_indented h raw n with ⟨none, none'⟩ | ⟨l, m, some, some', casts⟩
    · rw [none, none']
      exact ih (n + 1)
    · rw [some, some']
      exact .cons casts (ih (n + 1))

/-- **Indentation makes no difference.** A text with the same white space in front of each line is
the document of the text, where each description has that in front, or breaks the grammar in the
same way. -/
theorem Document.ofText_indented (h : Indentation w) (text : String) :
    ofText (indented w text) = (·.recast (.indent w)) <$> ofText text := by
  have kept := Recast.kind_eq_self (r := Recast.indent w) rfl rfl rfl
  have same : ∀ v : Violation, v.recast (.indent w) = v := by
    intro v
    cases v <;> simp only [Violation.recast, kept] <;> rfl
  rw [ofText, Line.ofText, Line.readAll, lines_indented h,
    ofLines_recast (Line.forall₂_readFrom_indented h 1 (lines text))]
  show _ = (·.recast (.indent w)) <$> ofLines (Line.readFrom 1 (lines text))
  cases ofLines (Line.readFrom 1 (lines text)) with
  | ok d => rfl
  | error v => exact congrArg Except.error (same v)

/-- A text with a description and with a DocString whose lines have margins of their own. -/
def quotingText : String :=
  "Feature: F\n free\nScenario: S\nGiven x\n  ```\n    a\n b\n  ```\n"

theorem quotingText_indented :
    Indentation "\t " ∧
    (Document.ofText quotingText).isOk = true ∧
    Document.ofText (indented "\t " quotingText) =
      (·.recast (.indent "\t ")) <$> Document.ofText quotingText := by
  have white : Indentation "\t " := ⟨List.all_eq_true.1 (by decide), by decide, by decide⟩
  exact ⟨white, by decide +kernel, Document.ofText_indented white quotingText⟩

end Gherkin
