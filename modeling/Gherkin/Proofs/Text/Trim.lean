import Gherkin.Text.Blank
import Mathlib.Data.List.DropRight

/-!
# Trimmed texts

A text is trimmed at an end if trimming there leaves it as it is. What is trimmed is trimmed, and a
text put together of others is trimmed at an end if its outer part is and is not empty. White space
put in front of a text makes its margin longer by as much.
-/

namespace Gherkin.Text

variable {c : Char} {cs xs ys : List Char}

theorem skipBlank_cons_of_not_blank (h : isBlank c = false) : skipBlank (c :: cs) = c :: cs := by
  simp [skipBlank, h]

theorem skipBlank_append_of_blank (h : ∀ c ∈ xs, isBlank c = true) :
    skipBlank (xs ++ ys) = skipBlank ys :=
  List.dropWhile_append_of_pos h

/-- What follows white space does not begin with white space. -/
theorem not_blank_of_skipBlank (h : skipBlank xs = c :: cs) : isBlank c = false := by
  have head := List.head?_dropWhile_not isBlank xs
  rw [skipBlank] at h
  simpa [h] using head

@[simp] theorem skipBlank_skipBlank : skipBlank (skipBlank cs) = skipBlank cs := by
  cases h : skipBlank cs with
  | nil => rfl
  | cons d ds => exact skipBlank_cons_of_not_blank (not_blank_of_skipBlank h)

theorem trimEnd_append : trimEnd (xs ++ ys) =
    if (trimEnd ys).isEmpty then trimEnd xs else xs ++ trimEnd ys := by
  simp only [trimEnd, skipBlank, List.reverse_append, List.dropWhile_append, List.isEmpty_reverse]
  split <;> simp

theorem trimEnd_append_of_ne_nil (h : trimEnd ys ≠ []) : trimEnd (xs ++ ys) = xs ++ trimEnd ys := by
  rw [trimEnd_append, if_neg (by simpa using h)]

@[simp] theorem trimEnd_trimEnd : trimEnd (trimEnd cs) = trimEnd cs :=
  List.rdropWhile_idempotent isBlank cs

theorem trimEnd_singleton_of_not_blank (h : isBlank c = false) : trimEnd [c] = [c] := by
  simp [trimEnd, skipBlank, h]

theorem trimEnd_cons_of_not_blank (h : isBlank c = false) :
    trimEnd (c :: cs) = c :: trimEnd cs := by
  have split : c :: cs = [c] ++ cs := rfl
  rw [split, trimEnd_append, trimEnd_singleton_of_not_blank h]
  cases trimEnd cs <;> simp

theorem mem_of_mem_trimEnd (h : c ∈ trimEnd cs) : c ∈ cs :=
  (List.rdropWhile_prefix isBlank cs).subset h

theorem mem_of_mem_skipBlank (h : c ∈ skipBlank cs) : c ∈ cs :=
  (List.dropWhile_sublist isBlank).subset h

theorem mem_of_mem_trim (h : c ∈ trim cs) : c ∈ cs :=
  mem_of_mem_skipBlank (mem_of_mem_trimEnd h)

/-- Trimming the end leaves the beginning trimmed. -/
theorem skipBlank_trimEnd (h : skipBlank cs = cs) : skipBlank (trimEnd cs) = trimEnd cs := by
  cases cs with
  | nil => rfl
  | cons d ds =>
    have begins := not_blank_of_skipBlank h
    rw [trimEnd_cons_of_not_blank begins]
    exact skipBlank_cons_of_not_blank begins

/-- Nothing is left of white space only. -/
theorem trim_eq_nil_iff : trim cs = [] ↔ cs.all isBlank = true := by
  have skipped : skipBlank cs = [] ↔ cs.all isBlank = true := by
    rw [skipBlank, List.dropWhile_eq_nil_iff, List.all_eq_true]
  rw [← skipped]
  constructor
  · intro h
    cases rest : skipBlank cs with
    | nil => rfl
    | cons c ds =>
      rw [trim, rest, trimEnd_cons_of_not_blank (not_blank_of_skipBlank rest)] at h
      cases h
  · intro h
    rw [trim, h]
    rfl

@[simp] theorem skipBlank_trim : skipBlank (trim cs) = trim cs :=
  skipBlank_trimEnd skipBlank_skipBlank

@[simp] theorem trimEnd_trim : trimEnd (trim cs) = trim cs :=
  trimEnd_trimEnd

theorem trim_of_trimmed (front : skipBlank cs = cs) (back : trimEnd cs = cs) : trim cs = cs := by
  rw [trim, front, back]

@[simp] theorem trim_trim : trim (trim cs) = trim cs :=
  trim_of_trimmed skipBlank_trim trimEnd_trim

theorem skipBlank_of_trim (h : trim cs = cs) : skipBlank cs = cs := by
  rw [← h, skipBlank_trim]

theorem trimEnd_of_trim (h : trim cs = cs) : trimEnd cs = cs := by
  rw [← h, trimEnd_trim]

theorem trim_append_of_blank (h : ∀ c ∈ xs, isBlank c = true) : trim (xs ++ ys) = trim ys := by
  rw [trim, trim, skipBlank_append_of_blank h]

theorem trimEnd_append_of_blank (h : ∀ c ∈ ys, isBlank c = true) :
    trimEnd (xs ++ ys) = trimEnd xs := by
  have nothing : trimEnd ys = [] := List.rdropWhile_eq_nil_iff.2 h
  rw [trimEnd_append, nothing]
  rfl

theorem trim_append_of_blank_end (h : ∀ c ∈ ys, isBlank c = true) : trim (xs ++ ys) = trim xs := by
  have nothing : skipBlank ys = [] := List.dropWhile_eq_nil_iff.2 h
  have front : skipBlank (xs ++ ys) =
      if (skipBlank xs).isEmpty then skipBlank ys else skipBlank xs ++ ys := by
    exact List.dropWhile_append
  rw [trim, trim, front]
  split
  · next empty => rw [nothing, List.isEmpty_iff.1 empty]
  · exact trimEnd_append_of_blank h

/-- White space between a text and its end goes with the end. -/
theorem trimEnd_of_suffix (h : trimEnd (xs ++ ys) = xs ++ ys) (nonempty : ys ≠ []) :
    trimEnd ys = ys := by
  rw [trimEnd_append] at h
  split at h
  · have shorter : (trimEnd xs).length ≤ xs.length := by
      exact (List.rdropWhile_prefix isBlank xs).length_le
    have longer : (trimEnd xs).length = xs.length + ys.length := by
      rw [h, List.length_append]
    have : ys.length = 0 := by omega
    exact absurd (List.length_eq_zero_iff.1 this) nonempty
  · exact List.append_cancel_left h

theorem margin_append_of_blank (h : ∀ c ∈ xs, isBlank c = true) :
    margin (xs ++ ys) = xs.length + margin ys := by
  rw [margin, List.takeWhile_append_of_pos h, List.length_append, margin]

/-- White space in front is dropped first. -/
theorem dropMargin_append_of_blank (h : ∀ c ∈ xs, isBlank c = true) (n : Nat) :
    dropMargin (xs.length + n) (xs ++ ys) = dropMargin n ys := by
  rw [dropMargin_eq_drop, dropMargin_eq_drop, margin_append_of_blank h, Nat.add_min_add_left,
    List.drop_length_add_append]

theorem toList_trimmed (s : String) : (trimmed s).toList = trim s.toList := by
  simp [trimmed]

theorem toList_trimmedEnd (s : String) : (trimmedEnd s).toList = trimEnd s.toList := by
  simp [trimmedEnd]

end Gherkin.Text
