import Gherkin.Proofs.Descent.Agreement

/-!
# Descents into steps

A step is read by descent as by its draft, and so are backgrounds and scenarios, which are blocks of
steps. While a descent is in a table or in a DocString, the draft of the step is the one in whose
argument the rows or the lines are (`HoldsTable`, `docString_agrees`); a step goes on behind a
table only where the table cannot (`StepMatches`).
-/

namespace Gherkin

/-! ## Tables -/

/-- Neither a row nor a comment comes next, so a table ends here. -/
def TableEnds (ls : List Line) : Prop :=
  ∀ l ∈ ls.head?, l.kind ≠ .row ∧ l.kind ≠ .comment

namespace Table

/-- The table with the rows and comments that come next, and the lines that are left. -/
def grow (t : Table) : List Line → Table × List Line
  | [] => (t, [])
  | l :: ls =>
    match l.kind with
    | .row => (t.addRow l.row).grow ls
    | .comment => (t.addComment l.comment).grow ls
    | _ => (t, l :: ls)

/-- The table with the texts of its rows and their line numbers each in a list. -/
def grid (t : Table) : Descent.Grid :=
  ⟨t.line, t.rows.map Row.text, t.rows.map Row.line, t.comments⟩

theorem tableEnds_grow (t : Table) (ls : List Line) : TableEnds (t.grow ls).2 := by
  fun_induction grow t ls with
  | case1 t => simp [TableEnds]
  | case2 t l ls kind ih => exact ih
  | case3 t l ls kind ih => exact ih
  | case4 t l ls row comment =>
    intro m hm
    cases hm
    exact ⟨row, comment⟩

theorem paired_grid (t : Table) : t.grid.Paired where
  nonempty := by simp [grid, rows]
  length_eq := by simp [grid]
  line := by simp [grid, rows, Table.line]

theorem table_grid (t : Table) : t.grid.table = .ok t := by
  have rows : List.zipWith Row.mk t.grid.rowLines t.grid.rows = t.first :: t.others := by
    rw [grid, List.zipWith_map, List.zipWith_self]
    exact List.map_id _
  simp only [Descent.Grid.table, rows, t.paired_grid, if_true]
  rfl

end Table

/-- While an element is in the table `t`, and `holding t` itself, rows and comments go into `t`. -/
structure HoldsTable (feed : τ → Line → Verdict τ) (holding : Table → τ) : Prop where
  row {t : Table} {l : Line} (kind : l.kind = .row) :
    feed (holding t) l = .takes (holding (t.addRow l.row))
  comment {t : Table} {l : Line} (kind : l.kind = .comment) :
    feed (holding t) l = .takes (holding (t.addComment l.comment))

theorem HoldsTable.readOut_eq {feed : τ → Line → Verdict τ} {close : τ → Except Violation α}
    {holding : Table → τ} (h : HoldsTable feed holding) (t : Table) (ls : List Line) :
    readOut feed close (holding t) ls =
      readOut feed close (holding (t.grow ls).1) (t.grow ls).2 := by
  fun_induction Table.grow t ls with
  | case1 t => rfl
  | case2 t l ls kind ih => rw [readOut_of_takes (h.row kind), ih]
  | case3 t l ls kind ih => rw [readOut_of_takes (h.comment kind), ih]
  | case4 t l ls => rfl

/-- Where a step leaves a line, its block looks at the line as a block between steps does. -/
theorem BlockDraft.feed_of_settles {b : BlockDraft} {s : Step} {l : Line} (own : Kind)
    (state : b.current = some (.plain s)) (left : StepDraft.feedPlain s l = .leaves) :
    b.feed own l = b.settle.feed own l := by
  simp [feed, settle, state, StepDraft.feed, left]

namespace Descent

variable {l : Line} {ls : List Line}

theorem expect_of_eq_some {said? : Kind → Option α} {a : α} (said : said? l.kind = some a)
    (expected : String) : expect l expected said? = .ok a := by
  simp [expect, said]

theorem loop_gridTurn (t : Table) (ls : List Line) :
    ∃ u : Taken ls Grid, loop gridTurn t.grid ls = .ok u ∧ u.value = (t.grow ls).1.grid ∧
      u.rest = (t.grow ls).2 := by
  have addRow : ∀ t l, t.grid.addRow l = (Table.addRow t l.row).grid := by
    intro t l
    simp [Grid.addRow, Table.grid, Table.addRow, Table.rows, Table.line, Line.row]
  have longer : ∀ (g : Grid) (t : Table) (l : Line) (ls : List Line),
      gridTurn g l ls = .ok (some (.nothing t.grid)) →
      (∃ u : Taken ls Grid, loop gridTurn t.grid ls = .ok u ∧ u.value = (t.grow ls).1.grid ∧
        u.rest = (t.grow ls).2) →
      ∃ u : Taken (l :: ls) Grid, loop gridTurn g (l :: ls) = .ok u ∧
        u.value = (t.grow ls).1.grid ∧ u.rest = (t.grow ls).2 := by
    rintro g t l ls turn ⟨u, looped, value, rest⟩
    refine ⟨u.within (List.suffix_cons l ls), ?_, value, rest⟩
    rw [loop_of_goesOn turn]
    simp [Taken.nothing, looped, Except.map]
  fun_induction Table.grow t ls with
  | case1 t => exact ⟨_, loop_nil, rfl, rfl⟩
  | case2 t l ls kind ih =>
    refine longer _ _ l ls ?_ ih
    simp [gridTurn, kind, addRow]
  | case3 t l ls kind ih =>
    refine longer _ _ l ls ?_ ih
    simp only [gridTurn, kind]
    rfl
  | case4 t l ls row comment =>
    refine ⟨_, loop_of_ends ?_, rfl, rfl⟩
    simp [gridTurn]

/-- A row begins the table that grows from it. -/
theorem table_eq (kind : l.kind = .row) (ls : List Line) :
    ∃ u : Taken ls Table, table l ls = .ok u ∧ u.value = ((Table.start l).grow ls).1 ∧
      u.rest = ((Table.start l).grow ls).2 := by
  have begun : (Grid.start l.number).addRow l = (Table.start l).grid := rfl
  obtain ⟨u, looped, value, rest⟩ := loop_gridTurn (Table.start l) ls
  refine ⟨⟨((Table.start l).grow ls).1, u.rest, u.isSuffix⟩, ?_, rfl, rest⟩
  rw [table, expect_of_eq_some (a := ()) (by simp [only, kind]), begun]
  simp only [looped, bind, Except.bind]
  rw [Taken.andThen_of_ok]
  rw [value, Table.table_grid]

/-- A turn agrees that reads a table which begins at the line. -/
theorem turnAgrees_of_table {feed : τ → Line → Verdict τ} {close : τ → Except Violation α}
    {finish : σ → Except Halt α} {Matches : σ → τ → List Line → Prop} {turn : Turn σ} {s : σ}
    {t : τ} {holding : Table → τ} {f : Table → σ} (holds : HoldsTable feed holding)
    (kind : l.kind = .row) (begun : feed t l = .takes (holding (.start l)))
    (turn_eq : turn s l ls = (do return some ((← table l ls).map f)))
    (matched : ∀ tb ms, TableEnds ms → Matches (f tb) (holding tb) ms) :
    TurnAgrees feed close finish Matches turn s t l ls := by
  obtain ⟨u, read, value, rest⟩ := table_eq kind ls
  refine .goesOn (u.map f) (holding u.value) ?_ ?_ (matched u.value u.rest ?_)
  · rw [turn_eq, read]
    rfl
  · rw [readOut_of_takes begun, holds.readOut_eq, Taken.map, value, rest]
  · rw [rest]
    exact Table.tableEnds_grow _ _

/-! ## DocStrings -/

/-- A DocString that is taken is the argument of the step in whose draft the lines are. -/
theorem docString_agrees (s : Step) (d : DocDraft) (ls : List Line) :
    (∃ u : Taken ls DocString, docString d ls = .ok u ∧
      readOut StepDraft.feed StepDraft.close (.quoting s d) ls =
        readOut StepDraft.feed StepDraft.close
          (.plain { s with argument := some (.docString u.value) }) u.rest) ∨
    ∃ v, docString d ls = .error (.violation v) ∧
      readOut StepDraft.feed StepDraft.close (.quoting s d) ls = .error v := by
  induction ls generalizing d with
  | nil => exact .inr ⟨.unterminatedDocString d.line, rfl, readOut_nil_of_open rfl⟩
  | cons l ls ih =>
    by_cases closing : ∃ f, l.kind = .fence f
    · obtain ⟨f, kind⟩ := closing
      refine .inl ⟨⟨d.close f, ls, List.suffix_cons l ls⟩, ?_, ?_⟩
      · simp [docString, kind]
      · exact readOut_of_takes (by simp [StepDraft.feed, StepDraft.feedQuoting, kind])
    · have taken : StepDraft.feed (.quoting s d) l = .takes (.quoting s (d.add l)) := by
        cases kind : l.kind <;> simp_all [StepDraft.feed, StepDraft.feedQuoting]
      have inside : docString d (l :: ls) =
          (docString (d.add l) ls).map (·.within (List.suffix_cons l ls)) := by
        cases kind : l.kind <;> simp_all [docString] <;> rfl
      rw [inside, readOut_of_takes taken]
      rcases ih (d.add l) with ⟨u, read, draft⟩ | ⟨v, broken, draft⟩
      · exact .inl ⟨u.within (List.suffix_cons l ls), by rw [read]; rfl, draft⟩
      · exact .inr ⟨v, by rw [broken]; rfl, draft⟩

/-! ## Steps -/

/-- The draft of a step is the step. It is past a table of its own. -/
def StepMatches (s : Step) (t : StepDraft) (ls : List Line) : Prop :=
  t = .plain s ∧ ∀ tb, s.argument = some (.table tb) → TableEnds ls

section Step

variable {s : Step}

theorem holdsTable_step (s : Step) :
    HoldsTable StepDraft.feed fun t => .plain { s with argument := some (.table t) } where
  row kind := by simp [StepDraft.feed, StepDraft.feedPlain, kind]
  comment kind := by simp [StepDraft.feed, StepDraft.feedPlain, kind]

/-- A table is read into a step that has no argument. -/
theorem stepTurn_row_agrees (held : s.argument = none) (kind : l.kind = .row) :
    TurnAgrees StepDraft.feed StepDraft.close .ok StepMatches stepTurn s (.plain s) l ls := by
  refine turnAgrees_of_table (holdsTable_step s) kind ?_ ?_ fun _ _ ends => ⟨rfl, fun _ _ => ends⟩
  · simp [StepDraft.feed, StepDraft.feedPlain, kind, held]
  · simp only [stepTurn, argument, kind, held]
    cases table l ls <;> rfl

/-- A DocString is read into a step that has no argument. -/
theorem stepTurn_fence_agrees {f : Fence} (held : s.argument = none) (kind : l.kind = .fence f) :
    TurnAgrees StepDraft.feed StepDraft.close .ok StepMatches stepTurn s (.plain s) l ls := by
  have begun : StepDraft.feed (.plain s) l = .takes (.quoting s (.start f l)) := by
    simp [StepDraft.feed, StepDraft.feedPlain, kind, held]
  have turn : stepTurn s l ls = (do
      return some ((← docString (.start f l) ls).map fun d =>
        { s with argument := some (.docString d) })) := by
    simp only [stepTurn, argument, kind, held]
    cases docString (.start f l) ls <;> rfl
  rcases docString_agrees s (.start f l) ls with ⟨u, read, draft⟩ | ⟨v, broken, draft⟩
  · refine .goesOn (u.map fun d => { s with argument := some (.docString d) })
      (.plain { s with argument := some (.docString u.value) }) ?_ ?_ ⟨rfl, fun _ => ?_⟩
    · rw [turn, read]
      rfl
    · rw [readOut_of_takes begun, draft]
      rfl
    · simp [Taken.map]
  · refine .breaksOff v ?_ ?_
    · rw [turn, broken]
      rfl
    · rw [readOut_of_takes begun, draft]

theorem stepTurn_agrees {t : StepDraft} (h : StepMatches s t (l :: ls)) :
    TurnAgrees StepDraft.feed StepDraft.close .ok StepMatches stepTurn s t l ls := by
  obtain ⟨rfl, ends⟩ := h
  by_cases data : l.kind = .row ∨ ∃ f, l.kind = .fence f
  · cases held : s.argument with
    | none =>
      rcases data with kind | ⟨f, kind⟩
      · exact stepTurn_row_agrees held kind
      · exact stepTurn_fence_agrees held kind
    | some a =>
      refine .of_rejects (.duplicateArgument l.number l.kind s.line) ?_ ?_
      · rcases data with kind | ⟨f, kind⟩ <;> simp [stepTurn, kind, held]
      · rcases data with kind | ⟨f, kind⟩
        · cases a with
          | table tb => exact absurd kind (ends tb held l rfl).1
          | docString d => simp [StepDraft.feed, StepDraft.feedPlain, kind, held]
        · simp [StepDraft.feed, StepDraft.feedPlain, kind, held]
  · by_cases kind : l.kind = .comment
    · have noTable : ∀ tb, s.argument ≠ some (.table tb) := fun tb held =>
        (ends tb held l rfl).2 kind
      refine .of_takes (s.addComment l.comment) ?_ ?_
        ⟨rfl, fun tb held => absurd held (noTable tb)⟩
      · simp [stepTurn, kind]
      · simp [StepDraft.feed, StepDraft.feedPlain, kind]
    · refine .ends ?_ ?_ rfl
      · simp only [stepTurn]
        split <;> simp_all
      · simp only [StepDraft.feed, StepDraft.feedPlain]
        split <;> simp_all

/-- A step is read by descent as by its draft. -/
theorem step_agrees {k : StepKeyword} (kind : l.kind = .step k) (ls : List Line) :
    Agrees (step l ls) (readOut StepDraft.feed StepDraft.close (.start k l) ls) := by
  rw [step, expect_of_eq_some (a := k) (by simp [Kind.step?, kind])]
  refine agrees_loop_ok StepMatches ?_ (fun s t l ls => stepTurn_agrees) ⟨rfl, by simp⟩
  rintro s t ⟨rfl, -⟩
  rfl

end Step

/-! ## Blocks of steps -/

/-- The draft of the block, between its steps. -/
def Block.draft (b : Block) : BlockDraft :=
  ⟨b.header, b.steps, none⟩

/-- An element whose lines are those of a block, as far as the block does not leave them; it is
`host b` when the block is `b`. -/
structure Hosts (own : Kind) (feed : τ → Line → Verdict τ) (close : τ → Except Violation α)
    (host : BlockDraft → τ) : Prop where
  takes {b b' : BlockDraft} {l : Line} (h : b.feed own l = .takes b') :
    feed (host b) l = .takes (host b')
  rejects {b : BlockDraft} {l : Line} {v : Violation} (h : b.feed own l = .rejects v) :
    feed (host b) l = .rejects v
  settles {b : BlockDraft} {s : Step} {l : Line} (state : b.current = some (.plain s))
    (h : StepDraft.feedPlain s l = .leaves) : feed (host b) l = feed (host b.settle) l
  close_eq {b : BlockDraft} {s : StepDraft} (state : b.current = some s) :
    close (host b) =
      (do close (host { b with steps := b.steps ++ [← s.close], current := none }))

section Block

variable {own : Kind} {feed : τ → Line → Verdict τ} {close : τ → Except Violation α}
  {host : BlockDraft → τ} {finish : Block → Except Halt α} {b : Block}

theorem Hosts.nested (h : Hosts own feed close host) (header : Header) (steps : List Step) :
    Nested StepDraft.feed StepDraft.close feed close (fun s => host ⟨header, steps, some s⟩)
      (fun s => host ⟨header, steps ++ [s], none⟩) where
  takes fed := h.takes (by simp [BlockDraft.feed, fed])
  rejects fed := h.rejects (by simp [BlockDraft.feed, fed])
  leaves {s l a} left closed := by
    cases s with
    | plain s =>
      cases closed
      exact h.settles rfl left
    | quoting s d => cases left
  leaves_open {s l v} left lacking := by
    cases s with
    | plain s => cases lacking
    | quoting s d => cases left
  close_eq s := h.close_eq rfl

/-- A turn of a block agrees with the draft of an element whose lines are those of the block. -/
theorem blockTurn_agrees (hosts : Hosts own feed close host)
    (left : own.endedBy l.kind = true → feed (host b.draft) l = .leaves)
    (closes : finish b = (close (host b.draft)).mapError .violation) :
    TurnAgrees feed close finish (fun b t _ => t = host b.draft) (blockTurn own) b (host b.draft) l
      ls := by
  by_cases holds : ∃ k, l.kind = .step k ∧ own.holds k = true
  · obtain ⟨k, kind, holds⟩ := holds
    have first : b.draft.feed own l = .takes ⟨b.header, b.steps, some (.start k l)⟩ := by
      simp [BlockDraft.feed, Block.draft, BlockDraft.accept, kind, holds]
    refine turnAgrees_of_nested (hosts.nested b.header b.steps) (hosts.takes first)
      (step_agrees kind ls) (f := fun s => { b with steps := b.steps ++ [s] }) ?_ fun s _ => rfl
    simp [blockTurn, kind, holds]
  · by_cases ended : own.endedBy l.kind = true
    · refine .ends ?_ (left ended) closes
      cases kind : l.kind <;> simp_all [blockTurn, Kind.endedBy]
    · cases kind : l.kind with
      | description =>
        refine .of_takes { b with header := b.header.addDescription l.description } ?_
          (hosts.takes ?_) rfl
        · simp [blockTurn, kind]
        · simp [BlockDraft.feed, BlockDraft.accept, Block.draft, kind]
      | comment =>
        refine .of_takes { b with header := b.header.addComment l.comment } ?_ (hosts.takes ?_) rfl
        · simp [blockTurn, kind]
        · simp [BlockDraft.feed, BlockDraft.accept, Block.draft, kind]
      | _ =>
        refine .of_rejects (l.unexpected own) ?_ (hosts.rejects ?_)
        · simp_all [blockTurn]
        · simp_all [BlockDraft.feed, BlockDraft.accept, Block.draft]

end Block

/-! ## Backgrounds and scenarios -/

theorem hosts_background :
    Hosts .background (BlockDraft.feed .background) BlockDraft.closeBackground id where
  takes h := h
  rejects h := h
  settles state left := BlockDraft.feed_of_settles _ state left
  close_eq {b s} state := by
    cases s with
    | plain s =>
      have closed := BlockDraft.close_of_plain state
      rw [id, BlockDraft.closeBackground_of_close closed (by simp)]
      exact (BlockDraft.closeBackground_of_close (b := ⟨b.header, b.steps ++ [s], none⟩) rfl
        (by simp)).symm
    | quoting s d => exact BlockDraft.closeBackground_of_open (BlockDraft.close_of_quoting state)

theorem hosts_scenario (k : ScenarioKeyword) :
    Hosts (.scenario k) ScenarioDraft.feed ScenarioDraft.close (ScenarioDraft.mk k) where
  takes h := by simp [ScenarioDraft.feed, h, Verdict.map]
  rejects h := by simp [ScenarioDraft.feed, h, Verdict.map]
  settles state left := by
    simp only [ScenarioDraft.feed, BlockDraft.feed_of_settles _ state left]
  close_eq {b s} state := by
    cases s with
    | plain s =>
      have closed : (ScenarioDraft.mk k b).block.close = _ := BlockDraft.close_of_plain state
      rw [ScenarioDraft.close_of_block closed]
      exact (ScenarioDraft.close_of_block (s := ⟨k, ⟨b.header, b.steps ++ [s], none⟩⟩) rfl).symm
    | quoting s d =>
      exact ScenarioDraft.close_of_open_block (BlockDraft.close_of_quoting state)

theorem Block.background_eq (b : Block) :
    b.background = b.draft.closeBackground.mapError .violation := by
  have closed : b.draft.close = .ok b.steps := BlockDraft.close_of_none rfl
  cases steps : b.steps with
  | nil =>
    rw [steps] at closed
    rw [BlockDraft.closeBackground_of_empty closed, background, steps]
    rfl
  | cons s ss =>
    rw [BlockDraft.closeBackground_of_close closed (by simp [steps]), background, steps]
    rfl

/-- A block leaves a line that ends it. -/
theorem Block.draft_leaves {own : Kind} {b : Block} (h : own.endedBy l.kind = true) :
    b.draft.feed own l = .leaves := by
  cases kind : l.kind <;> simp_all [BlockDraft.feed, draft, BlockDraft.accept, Kind.endedBy]

/-- A background is read by descent as by its draft. -/
theorem background_agrees (kind : l.kind = .background) (ls : List Line) :
    Agrees (background l ls)
      (readOut (BlockDraft.feed .background) BlockDraft.closeBackground (.start l) ls) := by
  rw [background, expect_of_eq_some (a := ()) (by simp [only, kind])]
  refine agrees_loop (fun b t _ => t = b.draft) ?_ ?_ rfl
  · rintro b t rfl
    exact b.background_eq
  · rintro b t l ls rfl
    exact blockTurn_agrees hosts_background Block.draft_leaves b.background_eq

/-- A scenario is read by descent as by its draft. -/
theorem scenario_agrees {k : ScenarioKeyword} (kind : l.kind = .scenario k) (ls : List Line) :
    Agrees (scenario l ls) (readOut ScenarioDraft.feed ScenarioDraft.close (.start k l) ls) := by
  have closes : ∀ b : Block,
      b.scenario k = (ScenarioDraft.mk k b.draft).close.mapError .violation := by
    intro b
    rw [ScenarioDraft.close_of_block (s := ⟨k, b.draft⟩) (BlockDraft.close_of_none rfl)]
    rfl
  rw [scenario, expect_of_eq_some (a := k) (by simp [scenario?, kind])]
  refine agrees_loop (fun b t _ => t = ScenarioDraft.mk k b.draft) ?_ ?_ rfl
  · rintro b t rfl
    exact closes b
  · rintro b t l ls rfl
    refine blockTurn_agrees (hosts_scenario k) (fun ended => ?_) (closes b)
    simp [ScenarioDraft.feed, Block.draft_leaves ended, Verdict.map]

end Descent

end Gherkin
