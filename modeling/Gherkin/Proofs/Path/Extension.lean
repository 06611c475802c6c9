import Mathlib.Data.List.Basic
import Gherkin.Path

/-!
# Extensions

The extension of a file name is what follows its last dot, if something is in front of that dot
(`Path.extension?_eq_some_iff`).
-/

namespace Gherkin

namespace Path

/-- The name ends in a dot and the extension, which has no dot in it; and something is in front. -/
def HasExtension (name extension : String) : Prop :=
  '.' ∉ extension.toList ∧ ∃ stem, stem ≠ "" ∧ name = stem ++ "." ++ extension

variable {separator : Char} {cs ds : List Char} {name stem extension : String}

theorem split_ne_nil (separator : Char) (cs : List Char) : split separator cs ≠ [] := by
  cases cs with
  | nil => simp [split]
  | cons c cs =>
    rw [split]
    split
    · simp
    · split <;> simp

theorem split_of_notMem (h : separator ∉ cs) : split separator cs = [cs] := by
  induction cs with
  | nil => rfl
  | cons c cs ih =>
    rw [List.mem_cons, not_or] at h
    rw [split, if_neg (Ne.symm h.1), ih h.2]

/-- What follows the last separator is the last part. -/
theorem split_append (cs : List Char) (h : separator ∉ ds) :
    split separator (cs ++ separator :: ds) = split separator cs ++ [ds] := by
  induction cs with
  | nil => simp [split, split_of_notMem h]
  | cons c cs ih =>
    rw [List.cons_append, split, split, ih]
    split
    · rfl
    · cases parts : split separator cs with
      | nil => exact absurd parts (split_ne_nil separator cs)
      | cons part parts => rfl

theorem split_eq_singleton_nil_iff : split separator cs = [[]] ↔ cs = [] := by
  constructor
  · intro h
    cases cs with
    | nil => rfl
    | cons c cs =>
      rw [split] at h
      split at h
      · exact absurd (List.cons.inj h).2 (split_ne_nil separator cs)
      · split at h <;> cases h
  · rintro rfl
    rfl

/-- A dot in front is part of the name. -/
theorem extension?_append (stem : String) (h : '.' ∉ extension.toList) :
    extension? (stem ++ "." ++ extension) = if stem = "" then none else some extension := by
  have chars : (stem ++ "." ++ extension).toList = stem.toList ++ '.' :: extension.toList := by
    simp
  rw [extension?, chars, split_append _ h, List.reverse_append, List.reverse_singleton,
    List.singleton_append]
  have alone : stem = "" ↔ (split '.' stem.toList).reverse = [[]] := by
    rw [List.reverse_eq_iff, List.reverse_singleton, split_eq_singleton_nil_iff,
      String.toList_eq_nil_iff]
  cases parts : (split '.' stem.toList).reverse with
  | nil => exact absurd (List.reverse_eq_nil_iff.1 parts) (split_ne_nil '.' _)
  | cons before more =>
    rw [parts, List.cons.injEq] at alone
    simp [alone]

/-- A text with a dot has a last one. -/
theorem exists_last_dot (h : '.' ∈ name.toList) :
    ∃ stem extension, '.' ∉ extension.toList ∧ name = stem ++ "." ++ extension := by
  obtain ⟨after, before, cut, none⟩ := List.eq_append_cons_of_mem (List.mem_reverse.2 h)
  refine ⟨.ofList before.reverse, .ofList after.reverse, by simpa using none, ?_⟩
  rw [List.reverse_eq_iff] at cut
  rw [← String.toList_inj, cut]
  simp

theorem extension?_eq_some_iff :
    extension? name = some extension ↔ HasExtension name extension := by
  constructor
  · intro h
    by_cases dot : '.' ∈ name.toList
    · obtain ⟨stem, last, none, rfl⟩ := exists_last_dot dot
      rw [extension?_append stem none] at h
      split at h
      · cases h
      · next some =>
        cases h
        exact ⟨none, stem, some, rfl⟩
    · rw [extension?, split_of_notMem dot] at h
      cases h
  · rintro ⟨none, stem, some, rfl⟩
    rw [extension?_append stem none, if_neg some]

end Path

end Gherkin
