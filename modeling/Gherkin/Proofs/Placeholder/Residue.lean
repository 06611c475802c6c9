import Gherkin.Proofs.Outline.Filling

/-!
# Filled texts

A `<` that starts no name in front of a name is followed by `>` or white space, for else the name's
own `>` would close it; so it starts no name whatever stands there in place of the name
(`IsLiteral.of_name`). Values without `<` therefore leave a text without names
(`Weave.Proper.isLiteral_filled`), and such a text is filled with itself.
-/

namespace Gherkin

namespace Placeholder

variable {l n v xs ys after : List Char} {w : Weave} {vs : List String}

/-- A literal in front of a name is one whatever comes after it. -/
theorem IsLiteral.of_name (h : IsLiteral l ('<' :: (n ++ '>' :: after))) : IsLiteral l ys := by
  intro before rest cut start
  obtain ⟨c, cs, same, opens, first, -⟩ := start
  -- the name's `>` comes after the first character behind the `<`, be that in the literal or not
  refine h before rest cut ?_
  cases rest with
  | nil => exact ⟨'<', n ++ '>' :: after, rfl, by decide, rfl, by simp⟩
  | cons d rest =>
    obtain ⟨rfl, -⟩ := List.cons.inj same
    exact ⟨d, rest ++ '<' :: (n ++ '>' :: after), rfl, opens, first, by simp⟩

theorem isLiteral_of_notMem (h : '<' ∉ l) : IsLiteral l after := by
  rintro before rest rfl
  simp at h

theorem IsLiteral.append (h : IsLiteral xs (ys ++ after)) (more : IsLiteral ys after) :
    IsLiteral (xs ++ ys) after := by
  induction xs with
  | nil => exact more
  | cons x xs ih =>
    obtain ⟨first, later⟩ := isLiteral_cons_iff.1 h
    rw [List.cons_append, isLiteral_cons_iff, List.append_assoc]
    exact ⟨first, ih later⟩

namespace Weave

/-- Values without `<` leave no name, neither between two pieces of the text nor across a value. -/
theorem Proper.isLiteral_filled (h : w.Proper) (plain : ∀ v ∈ vs, '<' ∉ v.toList) :
    IsLiteral (w.filled vs) [] := by
  induction w generalizing vs with
  | last l => cases vs <;> exact h
  | more l n w ih =>
    obtain ⟨literal, -, proper⟩ := h
    cases vs with
    | nil => exact literal.of_name
    | cons v vs =>
      have value : IsLiteral v.toList (w.filled vs) :=
        isLiteral_of_notMem (plain v List.mem_cons_self)
      have rest : IsLiteral (w.filled vs) [] :=
        ih proper fun u hu => plain u (List.mem_cons_of_mem v hu)
      rw [filled, List.append_assoc]
      refine literal.of_name.append (IsLiteral.append ?_ rest)
      rwa [List.append_nil]

/-- A text without a name is one literal. -/
theorem of_eq_last (h : IsLiteral l []) : of l = last l := by
  have proper : (last l).Proper := h
  exact (proper_iff.1 ⟨proper, rfl⟩).symm

end Weave

/-! ## What is read of a filled text -/

variable {columns cells : List String} {text filled : String} {line : Nat}

theorem mem_of_cell? {value : String} (h : cell? columns cells n = some value) :
    value ∈ cells := by
  obtain ⟨p, -, found⟩ := Option.bind_eq_some_iff.1 h
  exact List.mem_of_getElem? found

theorem FilledWith.isLiteral (h : FilledWith columns cells text filled)
    (plain : ∀ v ∈ cells, '<' ∉ v.toList) : IsLiteral filled.toList [] := by
  obtain ⟨vs, values, rfl⟩ := h
  rw [String.toList_ofList]
  refine (Weave.proper_of text.toList).1.isLiteral_filled fun v hv => plain v ?_
  obtain ⟨n, -, value⟩ := exists_of_mem_right values hv
  exact mem_of_cell? value

theorem names_of_isLiteral (h : IsLiteral text.toList []) : names text = [] := by
  rw [names_eq, Weave.of_eq_last h]
  rfl

theorem substitute_of_isLiteral (h : IsLiteral text.toList []) :
    substitute text columns cells line = .ok text := by
  rw [substitute_eq_ok_iff, Weave.of_eq_last h]
  exact ⟨[], .nil, by simp [Weave.filled]⟩

end Placeholder

theorem Step.FilledWith.parameters_eq_nil {columns cells : List String} {s s' : Step}
    (h : s.FilledWith columns cells s') (plain : ∀ v ∈ cells, '<' ∉ v.toList) :
    s'.parameters = [] :=
  Placeholder.names_of_isLiteral (h.text.isLiteral plain)

/-- **Nothing is left to fill.** A text in which values without `<` were put in place of the names
has no names, and filling it with whatever else leaves it as it is. So the instances of an outline
whose data has no `<` have no names in their titles, and their steps have no parameters. -/
theorem Placeholder.no_names_left :
    (∀ text columns cells line filled,
      substitute text columns cells line = .ok filled → (∀ v ∈ cells, '<' ∉ v.toList) →
        names filled = [] ∧ ∀ columns' cells' line',
          substitute filled columns' cells' line' = .ok filled) ∧
    ∀ (o : Outline) is, o.instances = .ok is →
      (∀ r ∈ o.dataRows, ∀ v ∈ r.cells, '<' ∉ v.toList) →
        ∀ i ∈ is, names i.title = [] ∧ ∀ s ∈ i.steps, s.parameters = [] := by
  constructor
  · intro text columns cells line filled put plain
    have literal := FilledWith.isLiteral (substitute_eq_ok_iff.1 put) plain
    exact ⟨names_of_isLiteral literal, fun _ _ _ => substitute_of_isLiteral literal⟩
  · intro o is filled plain i hi
    obtain ⟨⟨r, j⟩, hr, -, shows⟩ := exists_of_mem_right (Outline.instances_eq_ok_iff.1 filled) hi
    have cells := plain r (List.fst_mem_of_mem_zipIdx hr)
    refine ⟨names_of_isLiteral (shows.title.isLiteral cells), fun s hs => ?_⟩
    obtain ⟨s', -, step⟩ := exists_of_mem_right shows.steps hs
    exact step.parameters_eq_nil cells

/-- An outline with brackets around no name, in its texts and in its data. -/
def bracketedOutline : Outline :=
  ⟨.outline, ⟨2, "< <a> <", [], []⟩, [⟨.given, 3, "1 < <a>2> <>", [], none⟩],
    ⟨.examples, ⟨4, "", [], []⟩, some ⟨⟨5, "| a |"⟩, [⟨6, "| b> |"⟩], []⟩⟩⟩

/-- The only instance of `bracketedOutline`. -/
def bracketedInstance : Instance :=
  ⟨"< b> <", [⟨.given, 3, "1 < b>2> <>", [], none⟩], 0, 6⟩

theorem bracketedOutline_no_names_left :
    Placeholder.substitute "1 < <a>2> <>" ["a"] ["b>"] 3 = .ok "1 < b>2> <>" ∧
      Placeholder.names "1 < b>2> <>" = [] ∧
      bracketedOutline.instances = .ok [bracketedInstance] ∧
      ∀ s ∈ bracketedInstance.steps, s.parameters = [] := by
  have put : Placeholder.substitute "1 < <a>2> <>" ["a"] ["b>"] 3 = .ok "1 < b>2> <>" := by
    decide +kernel
  have filled : bracketedOutline.instances = .ok [bracketedInstance] := by
    decide +kernel
  have plain : ∀ r ∈ bracketedOutline.dataRows, ∀ v ∈ r.cells, '<' ∉ v.toList := by decide
  have text := (Placeholder.no_names_left.1 _ _ _ _ _ put (by decide)).1
  have outline := Placeholder.no_names_left.2 _ _ filled plain _ List.mem_cons_self
  exact ⟨put, text, filled, outline.2⟩

end Gherkin
