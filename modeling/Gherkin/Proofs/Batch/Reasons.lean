import Gherkin.Loading
import Gherkin.Proofs.Violation.Viable

/-!
# Reasons in one line

What is said of a file that cannot be loaded has no line feed: the texts have none, and nothing but
numbers and names of kinds is put into them.
-/

namespace Gherkin

/-- The text has no line feed. -/
def Unbroken (s : String) : Prop :=
  '\n' ∉ s.toList

instance (s : String) : Decidable (Unbroken s) :=
  inferInstanceAs (Decidable ('\n' ∉ s.toList))

theorem unbroken_append_iff {s t : String} : Unbroken (s ++ t) ↔ Unbroken s ∧ Unbroken t := by
  simp [Unbroken]

theorem unbroken_toString (n : Nat) : Unbroken (toString n) := by
  have digits : (toString n).toList = Nat.toDigits 10 n := by simp
  rw [Unbroken, digits]
  intro h
  have digit := Nat.isDigit_of_mem_toDigits (by decide) (by decide) h
  revert digit
  decide

theorem Kind.unbroken_label (k : Kind) : Unbroken k.label := by
  cases k with
  | step k => cases k <;> decide
  | scenario k => cases k <;> decide
  | outline k => cases k <;> decide
  | examples k => cases k <;> decide
  | fence k => cases k <;> decide
  | _ => decide

/-- A violation is put in one line, unless it says that a header is of another kind. -/
theorem Violation.unbroken_message {v : Violation}
    (h : ∀ line expected found, v ≠ .kindMismatch line expected found) : Unbroken v.message := by
  cases v with
  | kindMismatch line expected found => exact absurd rfl (h line expected found)
  | missingFeature => decide
  | _ =>
    unfold message
    simp only [unbroken_append_iff, unbroken_toString, Kind.unbroken_label, and_true, true_and]
    decide +kernel

theorem DiskError.unbroken_message (e : DiskError) : Unbroken e.message := by
  cases e <;> simp [Unbroken, message]

end Gherkin
