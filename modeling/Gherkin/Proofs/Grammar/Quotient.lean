import Mathlib.Computability.MyhillNerode
import Mathlib.Order.CompletePartialOrder

/-!
# Quotients by one letter

The left quotient of a language by a letter is what may follow the letter. It is computed along
the operations of the language: a sum by its summands, a product by its first factor and, where
that factor may be empty, by the second, a star by one round of its body. `absorb` lemmas drop a
summand that another one contains.
-/

namespace Language

open Computability

variable {α : Type*} {a : α} {l m n : Language α}

@[simp] theorem nil_mem_mul_iff : [] ∈ l * m ↔ [] ∈ l ∧ [] ∈ m := by
  simp [mem_mul]

@[simp] theorem leftQuotient_zero : (0 : Language α).leftQuotient [a] = 0 := rfl

@[simp] theorem leftQuotient_one : (1 : Language α).leftQuotient [a] = 0 := by
  ext w
  simp [mem_leftQuotient]

/-- A choice of languages, in the form `simp` gives a sum. -/
@[simp] theorem mem_sup_iff {w : List α} : w ∈ l ⊔ m ↔ w ∈ l ∨ w ∈ m := Iff.rfl

@[simp] theorem leftQuotient_sup :
    (l ⊔ m).leftQuotient [a] = l.leftQuotient [a] ⊔ m.leftQuotient [a] := rfl

/-- A word of the product begins in the first factor, or in the second if the first has the
empty word. -/
theorem cons_mem_mul_iff {w : List α} :
    a :: w ∈ l * m ↔ w ∈ l.leftQuotient [a] * m ∨ [] ∈ l ∧ w ∈ m.leftQuotient [a] := by
  simp only [mem_mul, mem_leftQuotient, List.singleton_append]
  constructor
  · rintro ⟨x, hx, y, hy, e⟩
    cases x with
    | nil => exact .inr ⟨hx, by rwa [← e]⟩
    | cons b x =>
      obtain ⟨rfl, rfl⟩ : b = a ∧ x ++ y = w := by simpa using e
      exact .inl ⟨x, hx, y, hy, rfl⟩
  · rintro (⟨x, hx, y, hy, rfl⟩ | ⟨hl, hm⟩)
    · exact ⟨a :: x, hx, y, hy, rfl⟩
    · exact ⟨[], hl, a :: w, hm, rfl⟩

theorem leftQuotient_mul_of_nil_mem (h : [] ∈ l) :
    (l * m).leftQuotient [a] = l.leftQuotient [a] * m + m.leftQuotient [a] := by
  ext w
  rw [mem_leftQuotient, List.singleton_append, cons_mem_mul_iff, mem_add]
  simp [h]

theorem leftQuotient_mul_of_nil_notMem (h : [] ∉ l) :
    (l * m).leftQuotient [a] = l.leftQuotient [a] * m := by
  ext w
  rw [mem_leftQuotient, List.singleton_append, cons_mem_mul_iff]
  simp [h]

/-- The first letter of a word of the star is read by the first round that is not empty. -/
@[simp] theorem leftQuotient_kstar : (l∗).leftQuotient [a] = l.leftQuotient [a] * l∗ := by
  ext w
  rw [mem_leftQuotient, List.singleton_append, mem_kstar_iff_exists_nonempty, mem_mul]
  constructor
  · rintro ⟨ws, e, h⟩
    cases ws with
    | nil => simp at e
    | cons x ws =>
      obtain ⟨hx, hne⟩ := h x (by simp)
      obtain ⟨b, x, rfl⟩ := List.exists_cons_of_ne_nil hne
      obtain ⟨rfl, rfl⟩ : a = b ∧ w = x ++ ws.flatten := by simpa using e
      exact ⟨x, hx, ws.flatten, join_mem_kstar fun y hy => (h y (by simp [hy])).1, rfl⟩
  · rintro ⟨x, hx, y, hy, rfl⟩
    obtain ⟨ws, rfl, h⟩ := mem_kstar_iff_exists_nonempty.1 hy
    refine ⟨(a :: x) :: ws, by simp, ?_⟩
    intro y hy
    rcases List.mem_cons.1 hy with rfl | hy
    · exact ⟨hx, by simp⟩
    · exact h y hy

/-- What follows a factor that may be empty is contained in the product. -/
theorem absorb_right (h : [] ∈ l) : l * m ⊔ m = l * m := by
  have one : (1 : Language α) ≤ l := by
    rintro w rfl
    exact h
  apply sup_eq_left.2
  calc m = 1 * m := (one_mul m).symm
    _ ≤ l * m := by gcongr

/-- Rounds, one of which is singled out, are rounds. -/
theorem kstar_mul_mul_kstar_le (h : m ≤ l) : l∗ * (m * l∗) ≤ l∗ :=
  calc l∗ * (m * l∗) ≤ l∗ * (l * l∗) := by gcongr
    _ ≤ l∗ * l∗ := by gcongr; exact mul_kstar_le_kstar
    _ = l∗ := kstar_mul_kstar l

end Language
