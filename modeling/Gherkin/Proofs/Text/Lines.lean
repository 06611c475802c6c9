import Gherkin.Text.Lines

/-!
# Lines of texts

Lines that have no line feed and end with one each are the lines of the text they make, but for a
carriage return at the end of a line (`lines_flatMap`): `chomp` drops it.
-/

namespace Gherkin.Text

variable {cs xs ys begun : List Char}

/-- The line without a carriage return at its end. -/
def chomp (cs : List Char) : List Char :=
  endedLine cs.reverse

@[simp] theorem chomp_snoc_return : chomp (cs ++ ['\r']) = cs := by
  simp [chomp, endedLine]

theorem chomp_snoc {c : Char} (h : c ≠ '\r') : chomp (cs ++ [c]) = cs ++ [c] := by
  simp only [chomp, List.reverse_append, List.reverse_singleton, List.singleton_append]
  rw [endedLine]
  · simp
  · intro ds hds
    exact h (List.cons.inj hds).1

@[simp] theorem chomp_nil : chomp [] = [] := rfl

/-- What is dropped of a line is a carriage return at its end. -/
theorem chomp_eq_self_or (cs : List Char) :
    chomp cs = cs ∧ cs.getLast? ≠ some '\r' ∨ cs = chomp cs ++ ['\r'] := by
  rcases List.eq_nil_or_concat cs with rfl | ⟨ds, c, rfl⟩
  · simp
  · by_cases h : c = '\r'
    · subst h
      simp
    · simp [chomp_snoc h, h]

theorem chomp_eq_self_iff : chomp cs = cs ↔ cs.getLast? ≠ some '\r' := by
  rcases chomp_eq_self_or cs with ⟨same, last⟩ | cut
  · exact ⟨fun _ => last, fun _ => same⟩
  · constructor
    · intro same
      rw [same] at cut
      simp at cut
    · intro last
      rw [cut] at last
      simp at last

theorem chomp_append (h : ys ≠ []) : chomp (xs ++ ys) = xs ++ chomp ys := by
  obtain ⟨zs, c, rfl⟩ := (List.eq_nil_or_concat ys).resolve_left h
  rw [List.concat_eq_append, ← List.append_assoc]
  by_cases hc : c = '\r'
  · subst hc
    rw [chomp_snoc_return, chomp_snoc_return]
  · rw [chomp_snoc hc, chomp_snoc hc, List.append_assoc]

theorem mem_of_mem_chomp {c : Char} (h : c ∈ chomp cs) : c ∈ cs := by
  rcases chomp_eq_self_or cs with ⟨same, -⟩ | cut
  · rwa [same] at h
  · rw [cut]
    exact List.mem_append_left _ h

/-! ## Cutting a text into lines -/

/-- The first line goes up to the first line feed. -/
theorem linesFrom_append (h : '\n' ∉ cs) (rest : List Char) :
    linesFrom begun (cs ++ '\n' :: rest) = chomp (begun.reverse ++ cs) :: linesFrom [] rest := by
  induction cs generalizing begun with
  | nil => simp [linesFrom, chomp]
  | cons c cs ih =>
    rw [List.mem_cons, not_or] at h
    have next : c ≠ '\n' := fun same => h.1 same.symm
    rw [List.cons_append, linesFrom, if_neg next, ih h.2]
    simp

/-- Lines with their line feeds are the lines of the text they make. -/
theorem linesFrom_flatMap {ls : List (List Char)} (h : ∀ l ∈ ls, '\n' ∉ l) :
    linesFrom [] (ls.flatMap (· ++ ['\n'])) = ls.map chomp := by
  induction ls with
  | nil => rfl
  | cons l ls ih =>
    have rest := ih fun m hm => h m (List.mem_cons_of_mem l hm)
    have whole : (l :: ls).flatMap (· ++ ['\n']) = l ++ '\n' :: ls.flatMap (· ++ ['\n']) := by
      simp
    rw [whole, linesFrom_append (h l List.mem_cons_self), rest]
    rfl

/-- A line has no line feed. -/
theorem not_mem_of_mem_linesFrom {l : List Char} (h : '\n' ∉ begun)
    (mem : l ∈ linesFrom begun cs) : '\n' ∉ l := by
  induction cs generalizing begun with
  | nil =>
    simp only [linesFrom] at mem
    split at mem
    · cases mem
    · rw [List.mem_singleton.1 mem]
      simpa using h
  | cons c cs ih =>
    simp only [linesFrom] at mem
    split at mem
    · rcases List.mem_cons.1 mem with rfl | mem
      · have whole : '\n' ∉ begun.reverse := by simpa using h
        intro inside
        refine whole (mem_of_mem_chomp ?_)
        simpa [chomp] using inside
      · exact ih (by simp) mem
    · next other =>
      refine ih ?_ mem
      rw [List.mem_cons, not_or]
      exact ⟨fun same => other same.symm, h⟩

end Gherkin.Text
