import Mathlib.Data.List.Flatten
import Gherkin.Proofs.Ownership.Documents
import Gherkin.Proofs.Page.Lines

/-!
# Numbers of lines

Lines that are read from a text have increasing numbers (`Line.number_readFrom`). A container has
the numbers of its header, of its steps and of its rows, in this order among those of its section
(`Section.Regular.numbers_sublist`); so what is listed container by container stands in the order
of the lines, the background apart (`Document.numbers_sublist`).
-/

namespace Gherkin

/-- The numbers of the lines that the header, the steps and the rows of a container stand on. -/
def Container.numbers (c : Container) : List Nat :=
  c.header.line :: c.steps.map Step.line ++
    (c.table.map fun t => t.rows.map Row.line).getD []

/-- The containers below the header of a feature, with the background first. -/
def Feature.containers (f : Feature) : List Container :=
  f.background.toList.map Background.container ++ f.items.flatMap Item.containers

/-! ## Sections -/

/-- The step lines of stretches are in the order of the pieces. -/
theorem stretches_sublist (ps : List Piece) :
    ((stretches ps).map Stretch.line).Sublist (ps.flatMap Piece.lines) := by
  induction ps with
  | nil => exact .slnil
  | cons p ps ih =>
    cases p with
    | quote => exact ih.trans (List.sublist_append_right _ _)
    | line l =>
      cases hk : l.kind with
      | step k => simpa [stretches, hk] using ih
      | _ => simpa [stretches, hk] using ih.cons l

/-- The rows among pieces are in the order of the pieces. -/
theorem rows_sublist (ps : List Piece) :
    ((ps.filterMap Piece.row?).map Row.line).Sublist
      ((ps.flatMap Piece.lines).map Line.number) := by
  induction ps with
  | nil => exact .slnil
  | cons p ps ih =>
    rw [List.flatMap_cons, List.map_append]
    by_cases hp : p.kind = .row
    · cases p with
      | quote => cases hp
      | line l =>
        rw [List.filterMap_cons_some (Piece.row?_line hp)]
        exact ih.cons_cons l.number
    · rw [List.filterMap_cons_none (Piece.row?_eq_none hp)]
      exact ih.trans (List.sublist_append_right _ _)

theorem Section.steps_sublist (s : Section) :
    (s.steps.map Step.line).Sublist ((s.body.flatMap Piece.lines).map Line.number) := by
  have lines := (stretches_sublist s.body).map Line.number
  rw [List.map_map] at lines
  rw [steps, List.map_map]
  exact lines

/-- The numbers of a container are in the order of the lines of its section. -/
theorem Section.Regular.numbers_sublist {s : Section} (h : s.Regular) :
    s.container.numbers.Sublist (s.lines.map Line.number) := by
  rw [Section.lines, List.map_cons]
  refine List.Sublist.cons_cons s.header.number ?_
  cases kind : s.header.kind with
  | examples k =>
    rw [Regular, kind] at h
    have noSteps : s.container.steps = [] := by
      rw [container, Section.steps, h.stretches_eq_nil]
      rfl
    have table : s.container.table = tableOf s.header.kind s.body := by
      simp only [container, kind]
    rw [noSteps, table]
    cases rows : tableOf s.header.kind s.body with
    | none => exact List.nil_sublist _
    | some t =>
      have own := rows_sublist s.body
      rwa [rows_of_tableOf rows] at own
  | _ =>
    have table : s.container.table = none := by
      simp only [container, kind]
    have steps : s.container.steps = s.steps := rfl
    rw [table, steps]
    simpa using s.steps_sublist

/-! ## Documents -/

/-- What is picked from a list is in its order. -/
theorem flatMap_filterMap_sublist {pick : α → Option β} {f : β → List γ} {g : α → List γ}
    (h : ∀ a b, pick a = some b → f b = g a) (as : List α) :
    ((as.filterMap pick).flatMap f).Sublist (as.flatMap g) := by
  induction as with
  | nil => exact .slnil
  | cons a as ih =>
    rw [List.flatMap_cons]
    cases picked : pick a with
    | none =>
      rw [List.filterMap_cons_none picked]
      exact ih.trans (List.sublist_append_right _ _)
    | some b =>
      rw [List.filterMap_cons_some picked, List.flatMap_cons, h a b picked]
      exact ih.append_left _

namespace Document

variable {d : Document} {ls : List Line}

/-- The numbers of the containers are in the order of the lines, those of the background as well as
those of the items. -/
theorem numbers_sublist (h : ofLines ls = .ok d) :
    ((d.feature.background.toList.map Background.container).flatMap Container.numbers).Sublist
        (ls.map Line.number) ∧
      ((d.feature.items.flatMap Item.containers).flatMap Container.numbers).Sublist
        (ls.map Line.number) := by
  obtain ⟨lead, ss, entries, rfl, told⟩ := exists_told h
  have each : ∀ ss : List Section, (∀ s ∈ ss, s.Proper ∧ s.Regular) →
      ((ss.map Section.container).flatMap Container.numbers).Sublist
        ((ss.flatMap Section.lines).map Line.number) := by
    intro ss sound
    induction ss with
    | nil => exact .slnil
    | cons s ss ih =>
      rw [List.map_cons, List.flatMap_cons, List.flatMap_cons, List.map_append]
      exact (sound s List.mem_cons_self).2.numbers_sublist.append
        (ih fun t ht => sound t (List.mem_cons_of_mem s ht))
  have all : ((entries.flatMap Entry.containers).flatMap Container.numbers).Sublist
      ((lead ++ ss.flatMap Section.lines).map Line.number) := by
    have told := told.containers ▸ each ss told.sound
    rw [List.flatMap_cons] at told
    rw [List.map_append]
    exact (List.sublist_append_right _ _).trans (told.trans (List.sublist_append_right _ _))
  rw [List.flatMap_assoc] at all
  constructor
  · rw [← told.background, List.flatMap_map]
    refine List.Sublist.trans (flatMap_filterMap_sublist ?_ entries) all
    rintro (b | i) c picked <;> cases picked
    simp [Entry.containers]
  · rw [← told.items, List.flatMap_assoc]
    refine List.Sublist.trans (flatMap_filterMap_sublist ?_ entries) all
    rintro (b | i) j picked <;> cases picked
    rfl

end Document

/-- Lists whose members show the same, each as the other at its place, show the same. -/
theorem map_eq_map_of_forall₂ {f : α → γ} {g : β → γ} {as : List α} {bs : List β}
    (h : List.Forall₂ (fun a b => f a = g b) as bs) : as.map f = bs.map g := by
  rwa [← List.forall₂_eq_eq_eq, List.forall₂_map_left_iff, List.forall₂_map_right_iff]

/-- What is taken of each member is in the order of the members. -/
theorem flatten_sublist {f : α → List β} {as : List α} {groups : List (List β)}
    (h : List.Forall₂ (fun a g => g.Sublist (f a)) as groups) :
    groups.flatten.Sublist (as.flatMap f) := by
  induction h with
  | nil => exact .slnil
  | cons first _ ih => exact first.append ih

/-! ## Texts -/

namespace Line

/-- Lines that are read have increasing numbers, from the first one on. -/
theorem number_readFrom (n : Nat) (raws : List String) :
    ((readFrom n raws).map number).Pairwise (· < ·) ∧ ∀ l ∈ readFrom n raws, n ≤ l.number := by
  induction raws generalizing n with
  | nil => simp [readFrom]
  | cons raw raws ih =>
    obtain ⟨increasing, bound⟩ := ih (n + 1)
    cases read : read? raw n with
    | none =>
      simp only [readFrom, read]
      exact ⟨increasing, fun l hl => Nat.le_of_succ_le (bound l hl)⟩
    | some l =>
      obtain ⟨rfl, -⟩ := read?_number read
      simp only [readFrom, read, List.map_cons, List.pairwise_cons]
      refine ⟨⟨?_, increasing⟩, ?_⟩
      · intro m hm
        obtain ⟨k, hk, rfl⟩ := List.mem_map.1 hm
        exact bound k hk
      · intro k hk
        rcases List.mem_cons.1 hk with rfl | hk
        · exact Nat.le_refl _
        · exact Nat.le_of_succ_le (bound k hk)

end Line

namespace Document

variable {text : String} {d : Document}

/-- In a document of a text, the numbers of the items' containers increase, and so do those of the
background. -/
theorem numbers_increasing (h : ofText text = .ok d) :
    ((d.feature.background.toList.map Background.container).flatMap
        Container.numbers).Pairwise (· < ·) ∧
      ((d.feature.items.flatMap Item.containers).flatMap Container.numbers).Pairwise (· < ·) := by
  obtain ⟨background, items⟩ := numbers_sublist h
  have increasing := (Line.number_readFrom 1 (Text.lines text)).1
  exact ⟨increasing.sublist background, increasing.sublist items⟩

/-- What is listed item by item, each by numbers of its containers, increases. -/
theorem increasing_of_items (h : ofText text = .ok d) {groups : List (List Nat)}
    (own : List.Forall₂ (fun i g => g.Sublist (i.containers.flatMap Container.numbers))
      d.feature.items groups) : groups.flatten.Pairwise (· < ·) := by
  refine (numbers_increasing h).2.sublist ?_
  rw [List.flatMap_assoc]
  exact flatten_sublist own

end Document

end Gherkin
