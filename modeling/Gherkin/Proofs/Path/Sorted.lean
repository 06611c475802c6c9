import Mathlib.Data.List.Basic
import Mathlib.Order.Compare
import Gherkin.Path

/-!
# Sorted paths

The order of paths is a total order of their components: equal paths are those with the same
components (`compare_eq_iff`). A sorted list of paths ascends strictly (`ascending_sorted`), and of
the paths that are equal to any one it has the first (`find?_sorted`). So which paths it has,
spelling aside, depends on the set of the paths alone (`Ascending.map_components_eq`).
-/

namespace Gherkin

namespace Path

open Std

/-! ## The order -/

namespace Component

/-- The name of a component, if it has one. -/
def text : Component → String
  | .name text => text
  | _ => ""

/-- Components go by their sort, and names by their texts. -/
theorem compare_eq_compareLex :
    Component.compare = compareLex (compareOn rank) (compareOn text) := by
  funext a b
  cases a <;> cases b
  case name.name a b =>
    show compareOfLessAndEq a b = _
    rfl
  case root.root | here.here | up.up => decide
  all_goals rfl

instance : TransCmp Component.compare := by
  rw [compare_eq_compareLex]
  infer_instance

instance : LawfulEqCmp Component.compare where
  eq_of_compare {a b} h := by
    rw [compare_eq_compareLex, compareLex_eq_eq] at h
    simp only [compareOn, LawfulEqOrd.compare_eq_iff_eq] at h
    obtain ⟨rank, text⟩ := h
    cases a <;> cases b
    case name.name a b => exact congrArg name text
    all_goals first | rfl | cases rank

end Component

theorem compareComponents_eq_compareLex :
    compareComponents = List.compareLex Component.compare := by
  funext as bs
  induction as generalizing bs with
  | nil => cases bs <;> rfl
  | cons a as ih =>
    cases bs with
    | nil => rfl
    | cons b bs => rw [compareComponents, List.compareLex_cons_cons, ih]

instance : TransCmp compareComponents := by
  rw [compareComponents_eq_compareLex]
  infer_instance

instance : LawfulEqCmp compareComponents := by
  rw [compareComponents_eq_compareLex]
  infer_instance

instance : TransCmp compare where
  eq_swap {p q} := @OrientedCmp.eq_swap _ compareComponents _ (components p) (components q)
  isLE_trans {p q r} :=
    @TransCmp.isLE_trans _ compareComponents _ (components p) (components q) (components r)

/-- Paths are equal if their components are. -/
theorem compare_eq_iff {p q : String} : compare p q = .eq ↔ components p = components q :=
  @LawfulEqCmp.compare_eq_iff_eq _ compareComponents _ (components p) (components q)

/-- The path has the components. -/
def HasComponents (cs : List Component) (p : String) : Bool :=
  components p = cs

/-! ## Sorted lists -/

/-- The paths ascend strictly, so no two of them are equal. -/
def Ascending (ps : List String) : Prop :=
  ps.Pairwise fun p q => compare p q = .lt

variable {p q : String} {ps qs : List String}

theorem lt_of_mem_insert (h : ∀ r ∈ qs, compare q r = .lt) (less : compare q p = .lt) :
    ∀ r ∈ insert p qs, compare q r = .lt := by
  induction qs with
  | nil => simpa [insert] using less
  | cons r rs ih =>
    rw [List.forall_mem_cons] at h
    simp only [insert]
    split
    · simpa [less] using h
    · simpa using h
    · simpa [h.1] using ih h.2

theorem ascending_insert (h : Ascending qs) (p : String) : Ascending (insert p qs) := by
  induction qs with
  | nil => exact List.pairwise_singleton _ _
  | cons q qs ih =>
    obtain ⟨first, rest⟩ := List.pairwise_cons.1 h
    simp only [insert]
    split
    · next less =>
      refine List.pairwise_cons.2 ⟨?_, h⟩
      intro r hr
      rcases List.mem_cons.1 hr with rfl | hr
      · exact less
      · exact TransCmp.lt_trans less (first r hr)
    · exact h
    · next more =>
      exact List.pairwise_cons.2 ⟨lt_of_mem_insert first (OrientedCmp.gt_iff_lt.1 more), ih rest⟩

theorem ascending_sorted (ps : List String) : Ascending (sorted ps) := by
  have each : ∀ found, Ascending found →
      Ascending (ps.foldl (fun found p => insert p found) found) := by
    induction ps with
    | nil => exact fun found h => h
    | cons p ps ih => exact fun found h => ih _ (ascending_insert h p)
  exact each [] List.Pairwise.nil

/-- A path before all others in the list is equal to none of them. -/
theorem find?_eq_none_of_lt {cs : List Component} (h : ∀ r ∈ qs, compare p r = .lt)
    (here : HasComponents cs p) : qs.find? (HasComponents cs) = none := by
  rw [List.find?_eq_none]
  intro r hr there
  have same : compare p r = .eq := by
    rw [compare_eq_iff, of_decide_eq_true here, of_decide_eq_true there]
  rw [h r hr] at same
  cases same

/-- Of the paths with the same components, one that is in the list stays when another is put in. -/
theorem find?_insert (h : Ascending qs) (p : String) (cs : List Component) :
    (insert p qs).find? (HasComponents cs) =
      (qs.find? (HasComponents cs)).or ([p].find? (HasComponents cs)) := by
  induction qs with
  | nil => rfl
  | cons q qs ih =>
    obtain ⟨first, rest⟩ := List.pairwise_cons.1 h
    simp only [insert]
    split
    · next less =>
      have all : ∀ r ∈ q :: qs, compare p r = .lt := by
        rw [List.forall_mem_cons]
        exact ⟨less, fun r hr => TransCmp.lt_trans less (first r hr)⟩
      by_cases here : HasComponents cs p
      · rw [find?_eq_none_of_lt all here]
        simp [here]
      · simp [here]
    · next same =>
      have alike : HasComponents cs p = HasComponents cs q := by
        rw [HasComponents, HasComponents, compare_eq_iff.1 same]
      by_cases here : HasComponents cs q
      · simp [here]
      · simp [alike, here]
    · rw [List.find?_cons, List.find?_cons, ih rest]
      split <;> rfl

/-- Of the paths with the same components, the sorted list has the first. -/
theorem find?_sorted (ps : List String) (cs : List Component) :
    (sorted ps).find? (HasComponents cs) = ps.find? (HasComponents cs) := by
  have each : ∀ found, Ascending found →
      (ps.foldl (fun found p => insert p found) found).find? (HasComponents cs) =
        (found.find? (HasComponents cs)).or (ps.find? (HasComponents cs)) := by
    induction ps with
    | nil => simp
    | cons p ps ih =>
      intro found h
      have cut : (p :: ps).find? (HasComponents cs) =
          ([p].find? (HasComponents cs)).or (ps.find? (HasComponents cs)) := by
        rw [← List.find?_append]
        rfl
      rw [List.foldl_cons, ih _ (ascending_insert h p), find?_insert h, cut, Option.or_assoc]
  exact each [] List.Pairwise.nil

/-- A path is equal to one of the sorted list if it is equal to one of the paths. -/
theorem mem_map_components_sorted {cs : List Component} :
    cs ∈ (sorted ps).map components ↔ cs ∈ ps.map components := by
  have found : ∀ qs : List String, cs ∈ qs.map components ↔
      (qs.find? (HasComponents cs)).isSome = true := by
    intro qs
    simp [List.find?_isSome, HasComponents]
  rw [found, found, find?_sorted]

theorem find?_of_mem_ascending (h : Ascending qs) (mem : p ∈ qs) :
    qs.find? (HasComponents (components p)) = some p := by
  induction qs with
  | nil => cases mem
  | cons q qs ih =>
    obtain ⟨first, rest⟩ := List.pairwise_cons.1 h
    rcases List.mem_cons.1 mem with rfl | mem
    · simp [HasComponents]
    · have other : ¬ HasComponents (components p) q := by
        intro same
        have equal : compare q p = .eq := compare_eq_iff.2 (of_decide_eq_true same)
        rw [first p mem] at equal
        cases equal
      rw [List.find?_cons_of_neg other, ih rest mem]

/-- Each path of the sorted list is the first of those it is equal to. -/
theorem find?_of_mem_sorted (h : p ∈ sorted ps) :
    ps.find? (HasComponents (components p)) = some p := by
  rw [← find?_sorted]
  exact find?_of_mem_ascending (ascending_sorted ps) h

theorem Ascending.pairwise_components (h : Ascending ps) :
    (ps.map components).Pairwise fun as bs => compareComponents as bs = .lt :=
  List.pairwise_map.2 h

/-- Ascending paths are told by the set of their components, their spelling aside. -/
theorem Ascending.map_components_eq (hp : Ascending ps) (hq : Ascending qs)
    (same : ∀ cs, cs ∈ ps.map components ↔ cs ∈ qs.map components) :
    ps.map components = qs.map components := by
  have nodup : ∀ rs, Ascending rs → (rs.map components).Nodup := by
    intro rs h
    refine h.pairwise_components.imp ?_
    rintro as _ less rfl
    simp [ReflCmp.compare_self] at less
  have perm : (ps.map components).Perm (qs.map components) :=
    (List.perm_ext_iff_of_nodup (nodup ps hp) (nodup qs hq)).2 same
  refine perm.eq_of_pairwise ?_ hp.pairwise_components hq.pairwise_components
  intro as bs _ _ less more
  rw [OrientedCmp.gt_iff_lt.2 more] at less
  cases less

end Path

end Gherkin
