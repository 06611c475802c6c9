import Gherkin.Loading
import Gherkin.Proofs.Text.Lines

/-!
# Line ends and the byte order mark

A text written with carriage returns before its line feeds, or with a byte order mark in front, has
the lines that the text has without them; so have the bytes of it in a file.
-/

namespace Gherkin.Text

/-- The characters with a carriage return before each line feed. -/
def returned (cs : List Char) : List Char :=
  cs.flatMap fun c => if c = '\n' then ['\r', '\n'] else [c]

/-- The text with a carriage return before each line feed. -/
def withReturns (s : String) : String :=
  .ofList (returned s.toList)

/-- The text with a byte order mark in front. -/
def withMark (s : String) : String :=
  .ofList ('\ufeff' :: s.toList)

/-- No line feed of the text has a carriage return before it. -/
def Bare (cs : List Char) : Prop :=
  ∀ xs ys, cs ≠ xs ++ '\r' :: '\n' :: ys

variable {cs begun : List Char} {s : String}

theorem Bare.of_append (h : Bare (begun ++ cs)) : Bare cs := by
  intro xs ys same
  exact h (begun ++ xs) ys (by rw [same, List.append_assoc])

theorem Bare.of_notMem (h : '\r' ∉ cs) : Bare cs := by
  rintro xs ys rfl
  simp at h

/-- A line of the text is ended without a carriage return. -/
theorem endedLine_of_bare (h : Bare (begun.reverse ++ '\n' :: cs)) :
    endedLine begun = begun.reverse := by
  cases begun with
  | nil => rfl
  | cons c cs' =>
    rw [endedLine]
    rintro ds hds
    obtain ⟨rfl, rfl⟩ := List.cons.inj hds
    exact h cs'.reverse cs (by simp)

/-- The lines stay the same with carriage returns before the line feeds. -/
theorem linesFrom_returned (h : Bare (begun.reverse ++ cs)) :
    linesFrom begun (returned cs) = linesFrom begun cs := by
  induction cs generalizing begun with
  | nil => rfl
  | cons c cs ih =>
    by_cases feed : c = '\n'
    · subst feed
      have whole : Bare ((begun.reverse ++ ['\n']) ++ cs) := by simpa using h
      have rest : Bare cs := whole.of_append
      have cut : returned ('\n' :: cs) = '\r' :: '\n' :: returned cs := by simp [returned]
      rw [cut, linesFrom, if_neg (by decide), linesFrom, if_pos rfl, linesFrom, if_pos rfl,
        ih (by simpa using rest), endedLine_of_bare h, endedLine]
    · have next : Bare ((c :: begun).reverse ++ cs) := by simpa using h
      have kept : returned (c :: cs) = c :: returned cs := by simp [returned, feed]
      rw [kept, linesFrom, if_neg feed, linesFrom, if_neg feed, ih next]

theorem lines_withReturns (h : Bare s.toList) : lines (withReturns s) = lines s := by
  rw [lines, withReturns, String.toList_ofList, linesFrom_returned (by simpa using h)]
  rfl

theorem withoutMark_withMark (s : String) : withoutMark (withMark s) = s := by
  simp [withoutMark, withMark]

theorem withoutMark_eq (h : s.toList.head? ≠ some '\ufeff') : withoutMark s = s := by
  rw [withoutMark]
  split
  · next cs same =>
    rw [same] at h
    exact absurd rfl h
  · rfl

/-- A carriage return before the line feeds puts no mark in front. -/
theorem head?_returned (h : cs.head? ≠ some '\ufeff') : (returned cs).head? ≠ some '\ufeff' := by
  cases cs with
  | nil => simp [returned]
  | cons c cs =>
    by_cases feed : c = '\n'
    · simp [returned, feed]
    · simpa [returned, feed] using h

/-- The bytes of a text are read as its lines, less the mark. -/
theorem linesOfBytes_toUTF8 (s : String) :
    linesOfBytes s.toUTF8 = .ok (lines (withoutMark s)) := by
  have read : String.fromUTF8? s.toUTF8 = some s := by
    rw [String.fromUTF8?, String.toUTF8_eq_toByteArray, dif_pos s.isValidUTF8]
    rfl
  rw [linesOfBytes, read]

end Gherkin.Text
