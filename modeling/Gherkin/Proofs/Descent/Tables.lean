import Gherkin.Proofs.Descent.Documents
import Gherkin.Proofs.Rendering.Elements
import Gherkin.Proofs.Results

/-!
# Tables and the lines they are read from

A table is read from a run of lines: a row, and the rows and comments that follow it
(`Grid.ReadFrom`). Its texts and its line numbers are those of the rows in the run, one list of
lines giving both. Each loop of a descent keeps that the tables read so far stand in the lines
(`loop_keeps`), so each table of a document does (`tables_standIn`).
-/

namespace Gherkin

namespace Descent

/-- The run begins with a row, and has rows and comments only. Texts and line numbers of the table
are those of its rows, one for one. -/
structure Grid.ReadFrom (g : Grid) (run : List Line) : Prop where
  begins : run.head?.map Line.kind = some .row
  kinds : ∀ l ∈ run, l.kind = .row ∨ l.kind = .comment
  rows : g.rows = (run.filter (·.kind = .row)).map Line.payload
  rowLines : g.rowLines = (run.filter (·.kind = .row)).map Line.number
  comments : g.comments = (run.filter (·.kind = .comment)).map Line.comment

/-- The table is read from lines that follow each other in `whole`. -/
def Grid.StandsIn (g : Grid) (whole : List Line) : Prop :=
  ∃ run, run <:+: whole ∧ g.ReadFrom run

variable {l : Line} {ls whole run : List Line}

/-! ## One table -/

section Grid

variable {t : Table}

theorem Grid.readFrom_start (kind : l.kind = .row) : (Table.start l).grid.ReadFrom [l] where
  begins := by simp [kind]
  kinds := by simp [kind]
  rows := by simp [kind, Table.grid, Table.rows, Table.start, Line.row]
  rowLines := by simp [kind, Table.grid, Table.rows, Table.start, Line.row]
  comments := by simp [kind, Table.grid, Table.start]

theorem Grid.ReadFrom.begins_append {g : Grid} (h : g.ReadFrom run) (more : List Line) :
    (run ++ more).head?.map Line.kind = some .row := by
  cases run with
  | nil => simpa using h.begins
  | cons l run => exact h.begins

theorem Grid.ReadFrom.addRow (h : t.grid.ReadFrom run) (kind : l.kind = .row) :
    (t.addRow l.row).grid.ReadFrom (run ++ [l]) where
  begins := h.begins_append [l]
  kinds m hm := by
    rcases List.mem_append.1 hm with hm | hm
    · exact h.kinds m hm
    · rw [List.mem_singleton.1 hm]
      exact .inl kind
  rows := by
    rw [List.filter_append, List.map_append, ← h.rows]
    simp [kind, Table.grid, Table.rows, Table.addRow, Line.row]
  rowLines := by
    rw [List.filter_append, List.map_append, ← h.rowLines]
    simp [kind, Table.grid, Table.rows, Table.addRow, Line.row]
  comments := by
    rw [List.filter_append, List.map_append, ← h.comments]
    simp [kind, Table.grid, Table.addRow]

theorem Grid.ReadFrom.addComment (h : t.grid.ReadFrom run) (kind : l.kind = .comment) :
    (t.addComment l.comment).grid.ReadFrom (run ++ [l]) where
  begins := h.begins_append [l]
  kinds m hm := by
    rcases List.mem_append.1 hm with hm | hm
    · exact h.kinds m hm
    · rw [List.mem_singleton.1 hm]
      exact .inr kind
  rows := by
    rw [List.filter_append, List.map_append, ← h.rows]
    simp [kind, Table.grid, Table.rows, Table.addComment]
  rowLines := by
    rw [List.filter_append, List.map_append, ← h.rowLines]
    simp [kind, Table.grid, Table.rows, Table.addComment]
  comments := by
    rw [List.filter_append, List.map_append, ← h.comments]
    simp [kind, Table.grid, Table.addComment]

/-- A table grows by the lines that are taken. -/
theorem Grid.ReadFrom.grow (h : t.grid.ReadFrom run) (ls : List Line) :
    ∃ more, ls = more ++ (t.grow ls).2 ∧ (t.grow ls).1.grid.ReadFrom (run ++ more) := by
  fun_induction Table.grow t ls generalizing run with
  | case1 t => exact ⟨[], rfl, by simpa using h⟩
  | case2 t l ls kind ih =>
    obtain ⟨more, cut, read⟩ := ih (h.addRow kind)
    exact ⟨l :: more, by rw [List.cons_append, ← cut], by simpa using read⟩
  | case3 t l ls kind ih =>
    obtain ⟨more, cut, read⟩ := ih (h.addComment kind)
    exact ⟨l :: more, by rw [List.cons_append, ← cut], by simpa using read⟩
  | case4 t l ls => exact ⟨[], rfl, by simpa using h⟩

end Grid

theorem kind_of_expect {said? : Kind → Option α} {expected : String} {a : α}
    (h : expect l expected said? = .ok a) : said? l.kind = some a := by
  simp only [expect] at h
  split at h
  · next b said =>
    cases h
    exact said
  · cases h

/-- A table that is taken stands in the lines. -/
theorem table_standsIn {u : Taken ls Table} (inside : l :: ls <:+ whole)
    (read : table l ls = .ok u) : u.value.grid.StandsIn whole := by
  have kind : l.kind = .row := by
    obtain ⟨_, said, -⟩ := bind_eq_ok_iff.1 read
    by_contra other
    simpa [only, other] using kind_of_expect said
  obtain ⟨v, taken, value, rest⟩ := table_eq kind ls
  rw [read] at taken
  cases taken
  obtain ⟨more, cut, grown⟩ := (Grid.readFrom_start kind).grow ls
  rw [← value] at grown
  refine ⟨l :: more, ?_, grown⟩
  have initial : l :: more <+: l :: ls := by
    rw [cut, ← List.cons_append]
    exact List.prefix_append _ _
  exact initial.isInfix.trans inside.isInfix

/-! ## Tables among elements -/

/-- The tables among the elements stand in `whole`. -/
def Sourced (whole : List Line) (es : List Element) : Prop :=
  ∀ t, Element.table t ∈ es → t.grid.StandsIn whole

section Sourced

variable {es fs : List Element}

@[simp] theorem sourced_nil : Sourced whole [] := by
  simp [Sourced]

@[simp] theorem sourced_cons {e : Element} :
    Sourced whole (e :: es) ↔ (∀ t, e = .table t → t.grid.StandsIn whole) ∧ Sourced whole es := by
  simp [Sourced, or_imp, forall_and, eq_comm]

@[simp] theorem sourced_append :
    Sourced whole (es ++ fs) ↔ Sourced whole es ∧ Sourced whole fs := by
  simp only [Sourced, List.mem_append, or_imp, forall_and]

@[simp] theorem sourced_flatMap {f : α → List Element} {as : List α} :
    Sourced whole (as.flatMap f) ↔ ∀ a ∈ as, Sourced whole (f a) := by
  simp only [Sourced, List.mem_flatMap]
  exact ⟨fun h a ha t ht => h t ⟨a, ha, ht⟩, fun h t ⟨a, ha, ht⟩ => h a ha t ht⟩

@[simp] theorem sourced_comments {cs : List Comment} : Sourced whole (cs.map .comment) := by
  simp [Sourced]

@[simp] theorem sourced_header {h : Header} : Sourced whole (h.elements es) ↔ Sourced whole es := by
  simp [Sourced, Header.elements]

@[simp] theorem sourced_table {t : Table} :
    Sourced whole t.elements ↔ t.grid.StandsIn whole := by
  simp [Table.elements]

end Sourced

/-! ## The loops -/

/-- What each turn keeps is kept by the loop. -/
theorem loop_keeps {turn : Turn σ} (Inv : σ → Prop)
    (turns : ∀ s l ls next, l :: ls <:+ whole → Inv s → turn s l ls = .ok (some next) →
      Inv next.value)
    {s : σ} (h : Inv s) (inside : ls <:+ whole) {u : Taken ls σ} (looped : loop turn s ls = .ok u) :
    Inv u.value := by
  induction hn : ls.length using Nat.strongRecOn generalizing s ls with
  | ind n ih =>
    cases ls with
    | nil =>
      rw [loop_nil] at looped
      cases looped
      exact h
    | cons l ls =>
      cases turned : turn s l ls with
      | error halt =>
        rw [loop_of_breaksOff turned] at looped
        cases looped
      | ok step =>
        cases step with
        | none =>
          rw [loop_of_ends turned] at looped
          cases looped
          exact h
        | some next =>
          rw [loop_of_goesOn turned] at looped
          obtain ⟨v, rest, rfl⟩ := map_eq_ok_iff.1 looped
          have longer := next.isSuffix.trans (List.suffix_cons l ls)
          refine ih _ ?_ (turns s l ls next inside h turned) (longer.trans inside) rest rfl
          rw [← hn]
          exact Nat.lt_succ_of_le next.isSuffix.length_le

/-- A turn that puts what it has read into a place. -/
theorem value_of_put {x : Except Halt (Taken ls α)} {slot : Slot} {old : Option α}
    {f : Option α → σ} {next : Taken ls σ}
    (h : (do return some (← (← x).andThen fun a => do return f (← slot.put old a))) =
      Except.ok (some next)) :
    ∃ t, x = .ok t ∧ next.value = f (some t.value) := by
  obtain ⟨t, read, h⟩ := bind_eq_ok_iff.1 h
  cases old with
  | none =>
    cases h
    exact ⟨t, read, rfl⟩
  | some a => cases h

/-- A turn that makes something of what it has read. -/
theorem value_of_map {x : Except Halt (Taken ls α)} {f : α → σ} {next : Taken ls σ}
    (h : (do return some ((← x).map f)) = Except.ok (some next)) :
    ∃ t, x = .ok t ∧ next.value = f t.value := by
  obtain ⟨t, read, ⟨⟩⟩ := bind_eq_ok_iff.1 h
  exact ⟨t, read, rfl⟩

/-- An argument that is taken is a DocString, or a table that stands in the lines. -/
theorem argument_sourced {u : Taken ls Argument} (inside : l :: ls <:+ whole)
    (read : argument l ls = .ok u) : Sourced whole u.value.elements := by
  simp only [argument] at read
  split at read
  · obtain ⟨d, -, ⟨⟩⟩ := bind_eq_ok_iff.1 read
    simp [Taken.map, Argument.elements]
  · obtain ⟨t, tabled, ⟨⟩⟩ := bind_eq_ok_iff.1 read
    simpa [Taken.map, Argument.elements] using table_standsIn inside tabled

theorem stepTurn_sourced {s : Step} {next : Taken ls Step} (inside : l :: ls <:+ whole)
    (h : Sourced whole s.elements) (turned : stepTurn s l ls = .ok (some next)) :
    Sourced whole next.value.elements := by
  have taken : (do
      let a ← argument l ls
      return some (← a.andThen fun a => do
        return { s with argument := ← Slot.argument.put s.argument a })) = .ok (some next) →
      Sourced whole next.value.elements := by
    intro taken
    obtain ⟨a, read, value⟩ := value_of_put taken
    simpa [value, Step.elements] using argument_sourced inside read
  simp only [stepTurn] at turned
  split at turned
  · cases turned
    simpa [Step.elements, Step.addComment, Taken.nothing] using h
  · split at turned
    · cases turned
    · exact taken turned
  · split at turned
    · cases turned
    · exact taken turned
  · cases turned

theorem step_sourced {u : Taken ls Step} (inside : l :: ls <:+ whole) (read : step l ls = .ok u) :
    Sourced whole u.value.elements := by
  obtain ⟨k, -, looped⟩ := bind_eq_ok_iff.1 read
  refine loop_keeps (fun s => Sourced whole s.elements) ?_ ?_ ((List.suffix_cons l ls).trans inside)
    looped
  · intro s l ls next
    exact stepTurn_sourced
  · simp [Step.elements]

theorem blockTurn_sourced {own : Kind} {b : Block} {next : Taken ls Block}
    (inside : l :: ls <:+ whole) (h : Sourced whole (b.steps.flatMap Step.elements))
    (turned : blockTurn own b l ls = .ok (some next)) :
    Sourced whole (next.value.steps.flatMap Step.elements) := by
  simp only [blockTurn] at turned
  split at turned
  · cases turned
    exact h
  · cases turned
    exact h
  · split at turned
    · obtain ⟨s, read, value⟩ := value_of_map turned
      rw [value, List.flatMap_append, sourced_append]
      exact ⟨h, by simpa using step_sourced inside read⟩
    · cases turned
  · split at turned <;> cases turned

theorem block_sourced {own : Kind} {header : Header} {u : Taken ls Block}
    (inside : l :: ls <:+ whole) (looped : loop (blockTurn own) ⟨header, []⟩ ls = .ok u) :
    Sourced whole (u.value.steps.flatMap Step.elements) := by
  refine loop_keeps (fun b => Sourced whole (b.steps.flatMap Step.elements)) ?_ ?_
    ((List.suffix_cons l ls).trans inside) looped
  · intro b l ls next
    exact blockTurn_sourced
  · simp

theorem background_sourced {u : Taken ls Background} (inside : l :: ls <:+ whole)
    (read : background l ls = .ok u) : Sourced whole u.value.elements := by
  obtain ⟨_, -, rest⟩ := bind_eq_ok_iff.1 read
  obtain ⟨b, looped, made⟩ := bind_eq_ok_iff.1 rest
  obtain ⟨c, closed, ⟨⟩⟩ := bind_eq_ok_iff.1 made
  have steps := block_sourced inside looped
  simp only [Block.background] at closed
  split at closed
  · cases closed
  · cases closed
    simpa [Background.elements] using steps

theorem scenario_sourced {u : Taken ls Scenario} (inside : l :: ls <:+ whole)
    (read : scenario l ls = .ok u) : Sourced whole u.value.elements := by
  obtain ⟨k, -, rest⟩ := bind_eq_ok_iff.1 read
  obtain ⟨b, looped, made⟩ := bind_eq_ok_iff.1 rest
  obtain ⟨c, ⟨⟩, ⟨⟩⟩ := bind_eq_ok_iff.1 made
  simpa [Scenario.elements] using block_sourced inside looped

theorem examplesTurn_sourced {e : Examples} {next : Taken ls Examples} (inside : l :: ls <:+ whole)
    (h : Sourced whole e.elements) (turned : examplesTurn e l ls = .ok (some next)) :
    Sourced whole next.value.elements := by
  simp only [examplesTurn] at turned
  split at turned
  · cases turned
    simpa [Examples.elements, Taken.nothing] using h
  · cases turned
    simpa [Examples.elements, Taken.nothing] using h
  · split at turned
    · cases turned
    · obtain ⟨t, read, value⟩ := value_of_put turned
      simpa [value, Examples.elements] using table_standsIn inside read
  · split at turned <;> cases turned

theorem examples_sourced {u : Taken ls Examples} (inside : l :: ls <:+ whole)
    (read : examples l ls = .ok u) : Sourced whole u.value.elements := by
  obtain ⟨k, -, looped⟩ := bind_eq_ok_iff.1 read
  refine loop_keeps (fun e => Sourced whole e.elements) ?_ ?_ ((List.suffix_cons l ls).trans inside)
    looped
  · intro e l ls next
    exact examplesTurn_sourced
  · simp [Examples.elements]

/-- The tables of an outline, with or without examples, stand in the lines. -/
def OpenOutline.Sourced (whole : List Line) (o : OpenOutline) : Prop :=
  Descent.Sourced whole (o.block.steps.flatMap Step.elements) ∧
    ∀ e ∈ o.examples, Descent.Sourced whole e.elements

theorem outlineTurn_sourced {o : OpenOutline} {next : Taken ls OpenOutline}
    (inside : l :: ls <:+ whole) (h : o.Sourced whole)
    (turned : outlineTurn o l ls = .ok (some next)) : next.value.Sourced whole := by
  simp only [outlineTurn] at turned
  split at turned
  · split at turned
    · cases turned
    · obtain ⟨e, read, value⟩ := value_of_put turned
      rw [value]
      exact ⟨h.1, by simpa using examples_sourced inside read⟩
  · obtain ⟨t, turnedBlock, made⟩ := bind_eq_ok_iff.1 turned
    cases t with
    | none => cases made
    | some t =>
      cases made
      exact ⟨blockTurn_sourced inside h.1 turnedBlock, h.2⟩

theorem outline_sourced {u : Taken ls Outline} (inside : l :: ls <:+ whole)
    (read : outline l ls = .ok u) : Sourced whole u.value.elements := by
  obtain ⟨k, -, rest⟩ := bind_eq_ok_iff.1 read
  obtain ⟨o, looped, made⟩ := bind_eq_ok_iff.1 rest
  obtain ⟨c, closed, ⟨⟩⟩ := bind_eq_ok_iff.1 made
  have kept : o.value.Sourced whole := by
    refine loop_keeps (OpenOutline.Sourced whole) ?_ ?_ ((List.suffix_cons l ls).trans inside)
      looped
    · intro o l ls next
      exact outlineTurn_sourced
    · simp [OpenOutline.Sourced]
  obtain ⟨steps, examples⟩ := kept
  simp only [OpenOutline.outline] at closed
  split at closed
  · next e held =>
    cases closed
    simpa [Outline.elements] using ⟨by simpa using steps, examples e held⟩
  · cases closed

theorem ruleTurn_sourced {r : Rule} {next : Taken ls Rule} (inside : l :: ls <:+ whole)
    (h : Sourced whole r.elements) (turned : ruleTurn r l ls = .ok (some next)) :
    Sourced whole next.value.elements := by
  simp only [ruleTurn] at turned
  split at turned
  · cases turned
    simpa [Rule.elements, Taken.nothing] using h
  · cases turned
    simpa [Rule.elements, Taken.nothing] using h
  · obtain ⟨s, read, value⟩ := value_of_map turned
    have scenario := scenario_sourced inside read
    simp only [Rule.elements, sourced_cons, sourced_header, sourced_flatMap] at h
    simpa [value, Rule.elements, or_imp, forall_and] using ⟨h.2, scenario⟩
  · split at turned <;> cases turned

theorem rule_sourced {u : Taken ls Rule} (inside : l :: ls <:+ whole)
    (read : rule l ls = .ok u) : Sourced whole u.value.elements := by
  obtain ⟨_, -, looped⟩ := bind_eq_ok_iff.1 read
  refine loop_keeps (fun r => Sourced whole r.elements) ?_ ?_ ((List.suffix_cons l ls).trans inside)
    looped
  · intro r l ls next
    exact ruleTurn_sourced
  · simp [Rule.elements]

theorem addItem_sourced {f : Feature} {i : Item} (h : Sourced whole f.elements)
    (item : Sourced whole i.elements) : Sourced whole (addItem f i).elements := by
  simp only [Feature.elements, sourced_cons, sourced_header, sourced_append] at h
  obtain ⟨-, background, items⟩ := h
  rw [Feature.elements, addItem, List.flatMap_append, sourced_cons, sourced_header, sourced_append,
    sourced_append]
  exact ⟨by simp, background, items, by simpa using item⟩

theorem featureTurn_sourced {f : Feature} {next : Taken ls Feature} (inside : l :: ls <:+ whole)
    (h : Sourced whole f.elements) (turned : featureTurn f l ls = .ok (some next)) :
    Sourced whole next.value.elements := by
  simp only [featureTurn] at turned
  split at turned
  · cases turned
    simpa [Feature.elements, Taken.nothing] using h
  · cases turned
    simpa [Feature.elements, Taken.nothing] using h
  · split at turned
    · cases turned
    · obtain ⟨b, read, value⟩ := value_of_put turned
      have background := background_sourced inside read
      simp only [Feature.elements, sourced_cons, sourced_header, sourced_append] at h
      rw [value, Feature.elements, sourced_cons, sourced_header, sourced_append]
      exact ⟨by simp, by simpa using background, h.2.2⟩
  · obtain ⟨s, read, value⟩ := value_of_map turned
    rw [value]
    exact addItem_sourced h (scenario_sourced inside read)
  · obtain ⟨r, read, value⟩ := value_of_map turned
    rw [value]
    exact addItem_sourced h (rule_sourced inside read)
  · obtain ⟨o, read, value⟩ := value_of_map turned
    rw [value]
    exact addItem_sourced h (outline_sourced inside read)
  · cases turned

theorem feature_sourced {u : Taken ls Feature} (inside : l :: ls <:+ whole)
    (read : feature l ls = .ok u) : Sourced whole u.value.elements := by
  obtain ⟨_, -, looped⟩ := bind_eq_ok_iff.1 read
  refine loop_keeps (fun f => Sourced whole f.elements) ?_ ?_ ((List.suffix_cons l ls).trans inside)
    looped
  · intro f l ls next
    exact featureTurn_sourced
  · simp [Feature.elements]

theorem documentAfter_sourced {comments : List Comment} {d : Document} (inside : ls <:+ whole)
    (read : documentAfter comments ls = .ok d) : Sourced whole d.elements := by
  induction ls generalizing comments with
  | nil => cases read
  | cons l ls ih =>
    simp only [documentAfter] at read
    split at read
    · exact ih ((List.suffix_cons l ls).trans inside) read
    · obtain ⟨f, taken, ⟨⟩⟩ := bind_eq_ok_iff.1 read
      rw [Document.elements, sourced_append]
      exact ⟨sourced_comments, feature_sourced inside taken⟩
    · cases read

/-- **Tables stand in the lines.** Each table of a document is read from a run of its lines. -/
theorem tables_standIn {d : Document} (read : document ls = .ok d) {t : Table}
    (mem : Element.table t ∈ d.elements) : t.grid.StandsIn ls :=
  documentAfter_sourced List.suffix_rfl read t mem

end Descent

end Gherkin
