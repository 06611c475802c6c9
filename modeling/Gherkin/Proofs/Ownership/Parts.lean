import Gherkin.Proofs.Ownership.Blocks

/-!
# The parts of a feature, by what was read of them

Each part is what its sections say: those that are finished tell a container each
(`Section.Finished`), and the last one is being read. Taking a line leads to the sections with
that line (`Takes.reads`), and a part that ends has told its containers (`Reads.close`).
-/

namespace Gherkin

namespace Section

/-- The sections tell the containers, one each. -/
structure Finished (ss : List Section) (cs : List Container) : Prop where
  told : ss.map container = cs
  sound : ∀ s ∈ ss, s.Proper ∧ s.Regular

variable {ss tt : List Section} {cs ds : List Container}

theorem Finished.append (h : Finished ss cs) (more : Finished tt ds) :
    Finished (ss ++ tt) (cs ++ ds) where
  told := by rw [List.map_append, h.told, more.told]
  sound := by
    intro s hs
    rcases List.mem_append.1 hs with hs | hs
    · exact h.sound s hs
    · exact more.sound s hs

/-- The lines of the sections, and those of a DocString that is open after them. -/
def written (ss : List Section) (quoted : List Line) : List Line :=
  ss.flatMap lines ++ quoted

theorem written_append {quoted : List Line} :
    written (ss ++ tt) quoted = ss.flatMap lines ++ written tt quoted := by
  simp [written]

end Section

open Section

variable {l : Line} {ss : List Section} {s : Section} {quoted : List Line}

namespace BlockDraft

variable {b b' : BlockDraft}

/-- A header that has only taken notes is a block without steps. -/
def ofHeader (h : Header) : BlockDraft :=
  ⟨h, [], none⟩

/-- A block that may end here has told its container. -/
theorem Reads.finished (h : b.Reads s quoted) {steps : List Step} (closed : b.close = .ok steps)
    (kind : ∀ k, s.header.kind ≠ .examples k) :
    quoted = [] ∧ Finished [s] [⟨s.header.kind, b.header, steps, none⟩] := by
  obtain ⟨rfl, rfl⟩ := h.close closed
  refine ⟨rfl, ?_, ?_⟩
  · cases hk : s.header.kind <;> simp_all [container, h.header]
  · intro t ht
    rw [List.mem_singleton.1 ht]
    refine ⟨h.proper, ?_⟩
    cases hk : s.header.kind <;> simp_all [Regular, h.data]

theorem written_of_grows {s' : Section} {quoted' : List Line} (h : Grows s s' quoted quoted' l) :
    written [s'] quoted' = written [s] quoted ++ [l] := by
  simpa [written] using h.lines

end BlockDraft

/-! ## Blocks of examples -/

theorem stretches_eq_nil {ps : List Piece} (h : ∀ p ∈ ps, ∀ k, p.kind ≠ .step k) :
    stretches ps = [] := by
  induction ps with
  | nil => rfl
  | cons p ps ih =>
    have rest := ih fun q hq => h q (List.mem_cons_of_mem p hq)
    cases p with
    | quote => simpa [stretches] using rest
    | line l =>
      have first := h (.line l) List.mem_cons_self
      cases hk : l.kind <;> simp_all [stretches]

/-- Below the header of a block of examples are rows and notes. -/
theorem Section.DataInTable.kind (h : s.DataInTable) :
    ∀ p ∈ s.body, p.kind = .row ∨ p.kind = .comment ∨ p.kind = .description := by
  obtain ⟨above, rows, below, body, inside, outside⟩ := h
  intro p hp
  rw [body, List.mem_append, List.mem_append] at hp
  rcases hp with (hp | hp) | hp
  · exact .inr (outside p (List.mem_append_left _ hp)).symm
  · exact (inside p hp).imp_right .inl
  · exact .inr (outside p (List.mem_append_right _ hp)).symm

theorem Section.DataInTable.stretches_eq_nil (h : s.DataInTable) : stretches s.body = [] := by
  apply Gherkin.stretches_eq_nil
  intro p hp
  rcases h.kind p hp with hk | hk | hk <;> simp [hk]

/-- Where a block of examples is in its section: above its table, in it, or below it. -/
inductive ExamplesDraft.At (e : ExamplesDraft) (s : Section) : Prop where
  | awaited (state : e.table = .awaited)
      (above : ∀ p ∈ s.body, p.kind = .description ∨ p.kind = .comment)
      (last : s.last.ownsForContainer = true)
  | growing {t : Table} {above rows : List Piece} (state : e.table = .growing t)
      (body : s.body = above ++ rows)
      (notes : ∀ p ∈ above, p.kind = .description ∨ p.kind = .comment)
      (data : ∀ p ∈ rows, p.kind = .row ∨ p.kind = .comment)
      (table : tableOf s.header.kind s.body = some t) (last : s.last = .row)
  | ended {t : Table} {above rows below : List Piece} (state : e.table = .ended t)
      (body : s.body = above ++ rows ++ below)
      (notes : ∀ p ∈ above ++ below, p.kind = .description ∨ p.kind = .comment)
      (data : ∀ p ∈ rows, p.kind = .row ∨ p.kind = .comment)
      (table : tableOf s.header.kind s.body = some t) (last : s.last.ownsForContainer = true)

/-- A block of examples is what was read of it. -/
structure ExamplesDraft.Reads (e : ExamplesDraft) (s : Section) : Prop where
  header : e.header = s.ownHeader
  kind : s.header.kind = .examples e.keyword
  proper : s.Proper
  state : e.At s

namespace ExamplesDraft

variable {e e' : ExamplesDraft}

theorem reads_start {k : ExamplesKeyword} (h : l.kind = .examples k) :
    (start k l).Reads ⟨l, []⟩ where
  header := rfl
  kind := h
  proper := ⟨by simp [h, Kind.category], by simp⟩
  state := .awaited rfl (by simp) (by simp [Section.last, h, Kind.ownsForContainer, Kind.category])

theorem Reads.push (h : e.Reads s) (line : e'.header = (s.push (.line l)).ownHeader)
    (keyword : e'.keyword = e.keyword)
    (kind : l.kind = .description ∨ l.kind = .comment ∨ l.kind = .row)
    (state : e'.At (s.push (.line l))) : e'.Reads (s.push (.line l)) where
  header := line
  kind := by rw [push_header, h.kind, keyword]
  proper := by
    rcases kind with hk | hk | hk <;>
      exact h.proper.push (by simp [Piece.Proper, hk]) (by simp [hk, Kind.category])
  state := state

theorem Reads.push_description (h : e.Reads s) (kind : l.kind = .description) :
    Reads { e with header := e.header.addDescription l.description, table := e.table.settle }
      (s.push (.line l)) := by
  have last : (s.push (.line l)).last.ownsForContainer = true := by
    rw [Section.last, push_body, lastKind_snoc (by simp [kind])]
    simp [kind, Kind.ownsForContainer]
  have kept : tableOf (s.push (.line l)).header.kind (s.push (.line l)).body =
      tableOf s.header.kind s.body := by
    exact tableOf_snoc (by simp [kind]) (by simp [kind])
  refine h.push ?_ rfl (.inl kind) ?_
  · rw [ownHeader_push_description kind, h.header]
  · cases h.state with
    | awaited state above =>
      refine .awaited (by simp [state, TableDraft.settle]) ?_ last
      intro p hp
      rcases List.mem_append.1 hp with hp | hp
      · exact above p hp
      · simp [List.mem_singleton.1 hp, kind]
    | @growing t above rows state body notes data table =>
      have longer : (s.push (.line l)).body = above ++ rows ++ [.line l] := by simp [body]
      refine .ended ?_ longer ?_ data (kept.trans table) last
      · simp [state, TableDraft.settle]
      · intro p hp
        rcases List.mem_append.1 hp with hp | hp
        · exact notes p hp
        · simp [List.mem_singleton.1 hp, kind]
    | @ended t above rows below state body notes data table =>
      have longer : (s.push (.line l)).body = above ++ rows ++ (below ++ [.line l]) := by
        simp [body]
      refine .ended ?_ longer ?_ data (kept.trans table) last
      · simp [state, TableDraft.settle]
      · intro p hp
        rw [← List.append_assoc] at hp
        rcases List.mem_append.1 hp with hp | hp
        · exact notes p hp
        · simp [List.mem_singleton.1 hp, kind]

theorem Reads.push_comment (h : e.Reads s) (kind : l.kind = .comment)
    (held : ∀ t, e.table ≠ .growing t) :
    Reads { e with header := e.header.addComment l.comment } (s.push (.line l)) := by
  have last : (s.push (.line l)).last = s.last := by
    exact lastKind_snoc_comment (p := .line l) kind
  have owned : s.last.ownsForContainer = true := by
    cases h.state with
    | awaited _ _ last => exact last
    | growing state => exact absurd state (held _)
    | ended _ _ _ _ _ last => exact last
  have kept : tableOf (s.push (.line l)).header.kind (s.push (.line l)).body =
      tableOf s.header.kind s.body := by
    apply tableOf_snoc (by simp [kind])
    intro _ row
    have lastRow : s.last = .row := row
    rw [lastRow] at owned
    cases owned
  refine h.push ?_ rfl (.inr (.inl kind)) ?_
  · rw [ownHeader_push_comment kind owned, h.header]
  · cases h.state with
    | awaited state above =>
      refine .awaited state ?_ (by rw [last]; exact owned)
      intro p hp
      rcases List.mem_append.1 hp with hp | hp
      · exact above p hp
      · simp [List.mem_singleton.1 hp, kind]
    | growing state => exact absurd state (held _)
    | @ended t above rows below state body notes data table =>
      have longer : (s.push (.line l)).body = above ++ rows ++ (below ++ [.line l]) := by
        simp [body]
      refine .ended state longer ?_ data (kept.trans table) (by rw [last]; exact owned)
      intro p hp
      rw [← List.append_assoc] at hp
      rcases List.mem_append.1 hp with hp | hp
      · exact notes p hp
      · simp [List.mem_singleton.1 hp, kind]

/-- A row or a comment goes into the table of a block of examples. -/
theorem Reads.push_table (h : e.Reads s) {t : Table} {above rows : List Piece}
    (kind : l.kind = .row ∨ l.kind = .comment) (body : s.body = above ++ rows)
    (notes : ∀ p ∈ above, p.kind = .description ∨ p.kind = .comment)
    (data : ∀ p ∈ rows, p.kind = .row ∨ p.kind = .comment)
    (last : l.kind = .comment → s.last = .row)
    (longer : tableOf s.header.kind (s.body ++ [.line l]) = some t) :
    Reads { e with table := .growing t } (s.push (.line l)) := by
  have among : l.kind = .description ∨ l.kind = .comment ∨ l.kind = .row := by
    rcases kind with hk | hk <;> simp [hk]
  refine h.push ?_ rfl among ?_
  · rw [ownHeader_push]
    · exact h.header
    · rcases kind with hk | hk <;> simp [hk]
    · intro hk
      rw [last hk]
      rfl
  · have more : (s.push (.line l)).body = above ++ (rows ++ [.line l]) := by simp [body]
    refine .growing rfl more notes ?_ longer ?_
    · intro p hp
      rcases List.mem_append.1 hp with hp | hp
      · exact data p hp
      · rw [List.mem_singleton.1 hp]
        exact kind
    · rcases kind with hk | hk
      · exact (lastKind_snoc (p := .line l) (by simp [hk])).trans hk
      · exact (lastKind_snoc_comment (p := .line l) hk).trans (last hk)

theorem Takes.reads (taken : e.Takes l e') (h : e.Reads s) : e'.Reads (s.push (.line l)) := by
  have table : ∀ {t}, e.table = .growing t → ∃ above rows, s.body = above ++ rows ∧
      (∀ p ∈ above, p.kind = .description ∨ p.kind = .comment) ∧
      (∀ p ∈ rows, p.kind = .row ∨ p.kind = .comment) ∧
      tableOf s.header.kind s.body = some t ∧ s.last = .row := by
    intro t held
    cases h.state with
    | awaited state => simp [state] at held
    | growing state body notes data table last =>
      rw [state, TableDraft.growing.injEq] at held
      subst held
      exact ⟨_, _, body, notes, data, table, last⟩
    | ended state => simp [state] at held
  cases taken with
  | description kind => exact h.push_description kind
  | comment kind held => exact h.push_comment kind held
  | tableComment kind held =>
    obtain ⟨above, rows, body, notes, data, shorter, last⟩ := table held
    exact h.push_table (.inr kind) body notes data (fun _ => last)
      (tableOf_snoc_comment kind shorter last)
  | row kind held =>
    obtain ⟨above, rows, body, notes, data, shorter, last⟩ := table held
    exact h.push_table (.inl kind) body notes data (by simp [kind]) (tableOf_snoc_row kind shorter)
  | firstRow kind held =>
    cases h.state with
    | awaited state above last =>
      have body : s.body = s.body ++ [] := by simp
      apply h.push_table (.inl kind) body above (by simp) (by simp [kind])
      apply tableOf_snoc_first kind (by simp [h.kind])
      intro p hp
      rcases above p hp with hk | hk <;> simp [hk]
    | growing state => simp [state] at held
    | ended state => simp [state] at held

/-- A block of examples has told its container at any time. -/
theorem Reads.finished (h : e.Reads s) : Finished [s] [e.close.container] := by
  have all : s.DataInTable ∧ tableOf s.header.kind s.body = e.table.table? := by
    cases h.state with
    | awaited state above last =>
      refine ⟨⟨s.body, [], [], by simp, by simp, by simpa using above⟩, ?_⟩
      rw [state]
      apply tableOf_eq_none
      intro p hp
      rcases above p hp with hk | hk <;> simp [hk]
    | @growing t above rows state body notes data table =>
      refine ⟨⟨above, rows, [], by simp [body], data, by simpa using notes⟩, ?_⟩
      rw [state]
      exact table
    | @ended t above rows below state body notes data table =>
      refine ⟨⟨above, rows, below, body, data, notes⟩, ?_⟩
      rw [state]
      exact table
  obtain ⟨data, table⟩ := all
  have noSteps : stretches s.body = [] := data.stretches_eq_nil
  refine ⟨?_, ?_⟩
  · have told : tableOf (.examples e.keyword) s.body = e.table.table? := by
      rw [← h.kind]
      exact table
    simp [container, Section.steps, noSteps, h.kind, close, Examples.container, h.header, told]
  · intro t ht
    rw [List.mem_singleton.1 ht]
    refine ⟨h.proper, ?_⟩
    rw [Regular, h.kind]
    exact data

end ExamplesDraft

/-! ## Outlines and rules -/

/-- An outline is what was read of it: its own section, and then that of its examples. -/
inductive OutlineDraft.Reads (o : OutlineDraft) : List Section → List Line → Prop where
  | steps {s : Section} {quoted : List Line} (state : o.examples = none)
      (kind : s.header.kind = o.kind) (reads : o.block.Reads s quoted) : o.Reads [s] quoted
  | examples {e : ExamplesDraft} {done s : Section} {steps : List Step}
      (state : o.examples = some e) (closed : o.block.close = .ok steps)
      (finished : Finished [done] [⟨o.kind, o.block.header, steps, none⟩]) (reads : e.Reads s) :
      o.Reads [done, s] []

namespace OutlineDraft

variable {o o' : OutlineDraft}

theorem Takes.reads (taken : o.Takes l o') (h : o.Reads ss quoted) :
    ∃ ss' quoted', written ss' quoted' = written ss quoted ++ [l] ∧ o'.Reads ss' quoted' := by
  cases taken with
  | block state taken =>
    cases h with
    | steps _ kind reads =>
      rw [← kind] at taken
      obtain ⟨s', quoted', grows, reads⟩ := taken.reads reads
      refine ⟨[s'], quoted', BlockDraft.written_of_grows grows, .steps state ?_ reads⟩
      rw [grows.header]
      exact kind
    | examples held => simp [state] at held
  | header kind state left =>
    cases h with
    | @steps s _ _ own reads =>
      have closed := BlockDraft.close_of_leaves left
      obtain ⟨rfl, finished⟩ := reads.finished closed (by simp [own, OutlineDraft.kind])
      have settled : o.block.settle.close = .ok o.block.settle.steps :=
        BlockDraft.close_of_none (BlockDraft.settle_current_of_leaves left)
      refine ⟨[s, ⟨l, []⟩], [], ?_, .examples rfl settled ?_ (ExamplesDraft.reads_start kind)⟩
      · simp [written, Section.lines]
      · rw [BlockDraft.settle_header]
        rw [own] at finished
        exact finished
    | examples held => simp [state] at held
  | examples state taken =>
    cases h with
    | steps none => simp [state] at none
    | examples held closed finished reads =>
      rw [state, Option.some.injEq] at held
      subst held
      refine ⟨_, [], ?_, .examples rfl closed finished (taken.reads reads)⟩
      simp [written, Section.lines_push]

/-- An outline that may end here has told its containers. -/
theorem Reads.close (h : o.Reads ss quoted) {outline : Outline} (closed : o.close = .ok outline) :
    quoted = [] ∧ Finished ss (Item.outline outline).containers := by
  simp only [OutlineDraft.close] at closed
  cases h with
  | steps state kind reads =>
    cases steps : o.block.close <;>
      simp [steps, state, bind, Except.bind, throw, throwThe, MonadExceptOf.throw] at closed
  | examples state steps finished reads =>
    simp only [steps, state, bind, Except.bind, pure, Except.pure, Except.ok.injEq] at closed
    subst closed
    exact ⟨rfl, finished.append reads.finished⟩

end OutlineDraft

/-- A rule is what was read of it: its own section, and then those of its scenarios. -/
inductive RuleDraft.Reads (r : RuleDraft) : List Section → List Line → Prop where
  | notes {s : Section} (state : r.current = none) (fresh : r.scenarios = [])
      (kind : s.header.kind = .rule) (reads : (BlockDraft.ofHeader r.header).Reads s []) :
      r.Reads [s] []
  | scenario {c : ScenarioDraft} {done : List Section} {s : Section} {quoted : List Line}
      (state : r.current = some c)
      (finished : Finished done
        (⟨.rule, r.header, [], none⟩ :: r.scenarios.map Scenario.container))
      (kind : s.header.kind = .scenario c.keyword) (reads : c.block.Reads s quoted) :
      r.Reads (done ++ [s]) quoted

/-- A scenario that may end here has told its container. -/
theorem ScenarioDraft.finished {c : ScenarioDraft} {s : Section} {quoted : List Line}
    (reads : c.block.Reads s quoted) (kind : s.header.kind = .scenario c.keyword)
    {scenario : Scenario} (closed : c.close = .ok scenario) :
    quoted = [] ∧ scenario.keyword = c.keyword ∧ Finished [s] [scenario.container] := by
  cases steps : c.block.close with
  | error v =>
    rw [close_of_open_block steps] at closed
    cases closed
  | ok steps =>
    rw [close_of_block (by assumption)] at closed
    cases closed
    obtain ⟨rfl, finished⟩ := reads.finished (by assumption) (by simp [kind])
    rw [kind] at finished
    exact ⟨rfl, rfl, finished⟩

namespace RuleDraft

variable {r r' : RuleDraft}

/-- The scenarios of a rule are told before a line that ends the last of them. -/
theorem Reads.closeScenarios (h : r.Reads ss quoted) {scenarios : List Scenario}
    (closed : r.closeScenarios = .ok scenarios) :
    quoted = [] ∧
      Finished ss (⟨.rule, r.header, [], none⟩ :: scenarios.map Scenario.container) := by
  cases h with
  | notes state fresh kind reads =>
    rw [closeScenarios_of_none state] at closed
    cases closed
    obtain ⟨-, finished⟩ := reads.finished (BlockDraft.close_of_none rfl) (by simp [kind])
    rw [kind] at finished
    rw [fresh]
    exact ⟨rfl, finished⟩
  | @scenario c done s _ state finished kind reads =>
    cases last : c.close with
    | error v =>
      rw [closeScenarios_of_open state last] at closed
      cases closed
    | ok scenario =>
      rw [closeScenarios_of_some state last] at closed
      cases closed
      obtain ⟨rfl, -, one⟩ := ScenarioDraft.finished reads kind last
      refine ⟨rfl, ?_⟩
      rw [List.map_append]
      exact finished.append one

theorem Takes.reads (taken : r.Takes l r') (h : r.Reads ss quoted) :
    ∃ ss' quoted', written ss' quoted' = written ss quoted ++ [l] ∧ r'.Reads ss' quoted' := by
  have notes : r.current = none → ∃ s, ss = [s] ∧ quoted = [] ∧ r.scenarios = [] ∧
      s.header.kind = .rule ∧ (BlockDraft.ofHeader r.header).Reads s [] := by
    intro state
    cases h with
    | notes _ fresh kind reads => exact ⟨_, rfl, rfl, fresh, kind, reads⟩
    | scenario held => simp [state] at held
  cases taken with
  | description kind state =>
    obtain ⟨s, rfl, rfl, fresh, own, reads⟩ := notes state
    have longer := reads.push_description kind (by simp [BlockDraft.Quoting, BlockDraft.ofHeader])
    refine ⟨[s.push (.line l)], [], ?_, .notes state fresh own longer⟩
    simp [written, Section.lines_push]
  | comment kind state =>
    obtain ⟨s, rfl, rfl, fresh, own, reads⟩ := notes state
    have longer := reads.push_comment kind rfl
    refine ⟨[s.push (.line l)], [], ?_, .notes state fresh own longer⟩
    simp [written, Section.lines_push]
  | header kind closed =>
    obtain ⟨rfl, finished⟩ := h.closeScenarios closed
    have begun : (BlockDraft.start l).Reads ⟨l, []⟩ [] := by
      exact BlockDraft.reads_start (by simp [kind, Kind.category])
    refine ⟨ss ++ [⟨l, []⟩], [], ?_, .scenario (s := ⟨l, []⟩) rfl finished kind begun⟩
    simp [written, Section.lines]
  | scenario state taken =>
    cases h with
    | notes none => simp [state] at none
    | @scenario c done s _ held finished kind reads =>
      rw [state, Option.some.injEq] at held
      subst held
      rw [← kind] at taken
      obtain ⟨s', quoted', grows, reads⟩ := taken.reads reads
      refine ⟨done ++ [s'], quoted', ?_, .scenario rfl finished ?_ reads⟩
      · rw [written_append, written_append, BlockDraft.written_of_grows grows, List.append_assoc]
      · rw [grows.header]
        exact kind

end RuleDraft

end Gherkin
