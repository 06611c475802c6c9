import Mathlib.Data.List.Forall2

/-!
# Results that may be errors

A traversal by `mapM` in `Except` has a result if each member has one (`mapM_eq_ok_iff`), and
otherwise the error of the first member that has none (`failure?_mapM`).
-/

namespace Gherkin

/-- The error, if the result is one. -/
def failure? : Except ε α → Option ε
  | .ok _ => none
  | .error e => some e

section Results

variable {x : Except ε α} {e : ε}

theorem failure?_eq_some_iff : failure? x = some e ↔ x = .error e := by
  cases x <;> simp [failure?]

theorem failure?_eq_none_iff : failure? x = none ↔ ∃ a, x = .ok a := by
  cases x <;> simp [failure?]

/-- The first member that fails decides. -/
theorem failure?_mapM (f : α → Except ε β) (as : List α) :
    failure? (as.mapM f) = as.findSome? fun a => failure? (f a) := by
  induction as with
  | nil => rfl
  | cons a as ih =>
    rw [List.mapM_cons, List.findSome?_cons, ← ih]
    cases f a with
    | error e => rfl
    | ok b => cases as.mapM f <;> rfl

/-- There are results for all members, in their order. -/
theorem mapM_eq_ok_iff {f : α → Except ε β} {as : List α} {bs : List β} :
    as.mapM f = .ok bs ↔ List.Forall₂ (fun a b => f a = .ok b) as bs := by
  induction as generalizing bs with
  | nil => simp [pure, Except.pure, eq_comm]
  | cons a as ih =>
    rw [List.mapM_cons, List.forall₂_cons_left_iff]
    simp only [← ih]
    cases f a with
    | error e => simp [bind, Except.bind]
    | ok b => cases as.mapM f <;> simp [bind, Except.bind, pure, Except.pure, eq_comm]

/-- The error is that of the first member that has no result. -/
theorem mapM_eq_error_iff {f : α → Except ε β} {as : List α} :
    as.mapM f = .error e ↔ ∃ before a after, as = before ++ a :: after ∧ f a = .error e ∧
      ∀ b ∈ before, ∃ c, f b = .ok c := by
  rw [← failure?_eq_some_iff, failure?_mapM, List.findSome?_eq_some_iff]
  simp only [failure?_eq_some_iff, failure?_eq_none_iff]

/-- What stands at a place among the results goes by the member at that place. -/
theorem getElem?_of_mapM_eq_ok {f : α → Except ε β} {as : List α} {bs : List β}
    (h : as.mapM f = .ok bs) (j : Nat) : bs[j]?.map .ok = as[j]?.map f := by
  have each := mapM_eq_ok_iff.1 h
  clear h
  induction each generalizing j with
  | nil => rfl
  | cons first _ ih =>
    cases j with
    | zero => simp [first]
    | succ j => simpa using ih j

/-- Each member on the right has a partner on the left. -/
theorem exists_of_mem_right {R : α → β → Prop} {as : List α} {bs : List β}
    (h : List.Forall₂ R as bs) {b : β} (mem : b ∈ bs) : ∃ a ∈ as, R a b := by
  induction h with
  | nil => cases mem
  | @cons a b' as bs first _ ih =>
    rcases List.mem_cons.1 mem with rfl | mem
    · exact ⟨a, List.mem_cons_self, first⟩
    · obtain ⟨a', ha, related⟩ := ih mem
      exact ⟨a', List.mem_cons_of_mem a ha, related⟩

/-- A list whose partners are cut is cut with them. -/
theorem exists_cut_of_cut_right {R : α → β → Prop} {as : List α} {before after : List β} {b : β}
    (h : List.Forall₂ R as (before ++ b :: after)) :
    ∃ first a rest, as = first ++ a :: rest ∧ List.Forall₂ R first before ∧ R a b := by
  induction before generalizing as with
  | nil =>
    obtain ⟨a, rest, related, -, rfl⟩ := List.forall₂_cons_right_iff.1 h
    exact ⟨[], a, rest, rfl, .nil, related⟩
  | cons c before ih =>
    obtain ⟨a, rest, related, cut, rfl⟩ := List.forall₂_cons_right_iff.1 h
    obtain ⟨first, a', rest', rfl, partners, last⟩ := ih cut
    exact ⟨a :: first, a', rest', rfl, .cons related partners, last⟩

theorem toOption_eq_none_iff {x : Except ε α} : x.toOption = none ↔ ¬ ∃ a, x = .ok a := by
  cases x <;> simp [Except.toOption]

theorem not_exists_ok_iff {x : Except ε α} : (¬ ∃ a, x = .ok a) ↔ ∃ e, x = .error e := by
  cases x <;> simp

theorem map_eq_ok_iff {g : α → β} {x : Except ε α} {b : β} :
    g <$> x = .ok b ↔ ∃ a, x = .ok a ∧ g a = b := by
  cases x <;> simp [Functor.map, Except.map]

theorem bind_eq_ok_iff {f : α → Except ε β} {x : Except ε α} {b : β} :
    x >>= f = .ok b ↔ ∃ a, x = .ok a ∧ f a = .ok b := by
  cases x <;> simp [bind, Except.bind]

theorem failure?_map (g : α → β) (x : Except ε α) : failure? (g <$> x) = failure? x := by
  cases x <;> rfl

end Results

end Gherkin
