import Gherkin.Proofs.Descent.Steps

/-!
# Descents into documents

The elements around the blocks of steps are read by descent as by their drafts as well, up to whole
documents (`document_eq`): the descent gives what reading line by line gives, and of its checks none
ever fails. Once an outline has examples, its draft goes on with them where the descent is back in
the outline; no line comes then on which the two differ (`OutlineMatches`).
-/

namespace Gherkin

/-- A feature takes a line or rejects it. -/
def FeatureDraft.verdict (f : FeatureDraft) (l : Line) : Verdict FeatureDraft :=
  match f.feed l with
  | .ok f => .takes f
  | .error v => .rejects v

namespace FeatureDraft

variable {f g : FeatureDraft} {l : Line}

theorem feed_of_leaves (left : f.part.feed l = .leaves) (settled : f.settle = .ok g) :
    f.feed l = g.accept l := by
  simp [feed, left, settled, bind, Except.bind]

theorem feed_of_opening (opening : f.part = .opening) : f.feed l = f.accept l :=
  feed_of_leaves (by rw [opening]; rfl) (settle_of_opening opening)

theorem verdict_of_ok (h : f.feed l = .ok g) : f.verdict l = .takes g := by
  simp [verdict, h]

theorem verdict_of_error {v : Violation} (h : f.feed l = .error v) : f.verdict l = .rejects v := by
  simp [verdict, h]

end FeatureDraft

namespace Descent

variable {l : Line} {ls : List Line}

/-! ## Examples -/

/-- Examples that are closed as a draft may be closed. -/
def closeExamples (e : ExamplesDraft) : Except Violation Examples :=
  .ok e.close

/-- The draft would be closed as the examples. It is past a table of its own. -/
def ExamplesMatches (e : Examples) (t : ExamplesDraft) (ls : List Line) : Prop :=
  e = t.close ∧ ∀ tb, t.table = .growing tb → TableEnds ls

theorem holdsTable_examples (e : ExamplesDraft) :
    HoldsTable ExamplesDraft.feed fun t => { e with table := .growing t } where
  row kind := by simp [ExamplesDraft.feed, kind]
  comment kind := by simp [ExamplesDraft.feed, kind]

/-- A table is read into examples that have none. -/
theorem examplesTurn_row_agrees {e : ExamplesDraft} (held : e.table = .awaited)
    (kind : l.kind = .row) :
    TurnAgrees ExamplesDraft.feed closeExamples .ok ExamplesMatches examplesTurn e.close e l
      ls := by
  refine turnAgrees_of_table (f := fun t => { e.close with table := some t })
    (holdsTable_examples e) kind ?_ ?_ fun _ _ ends => ⟨rfl, fun _ _ => ends⟩
  · simp [ExamplesDraft.feed, kind, held]
  · simp only [examplesTurn, kind, ExamplesDraft.close, held]
    cases table l ls <;> rfl

theorem examplesTurn_agrees {e : Examples} {t : ExamplesDraft}
    (h : ExamplesMatches e t (l :: ls)) :
    TurnAgrees ExamplesDraft.feed closeExamples .ok ExamplesMatches examplesTurn e t l ls := by
  obtain ⟨rfl, ends⟩ := h
  cases kind : l.kind with
  | row =>
    cases held : t.table with
    | awaited => exact examplesTurn_row_agrees held kind
    | growing tb => exact absurd kind (ends tb held l rfl).1
    | ended tb =>
      refine .of_rejects (.duplicateTable l.number t.kind t.header.line) ?_ ?_
      · simp [examplesTurn, kind, ExamplesDraft.close, held, TableDraft.table?, ExamplesDraft.kind]
      · simp [ExamplesDraft.feed, kind, held]
  | comment =>
    have notGrowing : ∀ tb, t.table ≠ .growing tb := fun tb held => (ends tb held l rfl).2 kind
    have taken : t.feed l = .takes { t with header := t.header.addComment l.comment } := by
      simp only [ExamplesDraft.feed, kind]
    refine .of_takes { t.close with header := t.header.addComment l.comment } ?_ taken
      ⟨rfl, fun tb held => absurd held (notGrowing tb)⟩
    simp [examplesTurn, kind, ExamplesDraft.close]
  | description =>
    have taken : t.feed l = .takes
        { t with header := t.header.addDescription l.description, table := t.table.settle } := by
      simp only [ExamplesDraft.feed, kind]
    refine .of_takes { t.close with header := t.header.addDescription l.description } ?_ taken
      ⟨?_, fun tb held => ?_⟩
    · simp [examplesTurn, kind, ExamplesDraft.close]
    · cases held : t.table <;>
        simp [ExamplesDraft.close, held, TableDraft.settle, TableDraft.table?]
    · cases was : t.table <;> simp [was, TableDraft.settle] at held
  | _ =>
    by_cases ended : t.kind.endedBy l.kind = true
    · refine .ends ?_ ?_ rfl
      · simp_all [examplesTurn, ExamplesDraft.close, ExamplesDraft.kind]
      · simp_all [ExamplesDraft.feed]
    · refine .of_rejects (l.unexpected t.kind) ?_ ?_
      · simp_all [examplesTurn, ExamplesDraft.close, ExamplesDraft.kind]
      · simp_all [ExamplesDraft.feed]

/-- Examples are read by descent as by their draft. -/
theorem examples_agrees {k : ExamplesKeyword} (kind : l.kind = .examples k) (ls : List Line) :
    Agrees (examples l ls) (readOut ExamplesDraft.feed closeExamples (.start k l) ls) := by
  rw [examples, expect_of_eq_some (a := k) (by simp [examples?, kind])]
  refine agrees_loop_ok ExamplesMatches ?_ (fun e t l ls => examplesTurn_agrees)
    ⟨rfl, by simp [ExamplesDraft.start]⟩
  rintro e t ⟨rfl, -⟩
  rfl

/-! ## Outlines -/

theorem hosts_outline (k : OutlineKeyword) :
    Hosts (.outline k) OutlineDraft.feed OutlineDraft.close (fun b => ⟨k, b, none⟩) where
  takes h := by simp [OutlineDraft.feed, OutlineDraft.kind, h]
  rejects h := by simp [OutlineDraft.feed, OutlineDraft.kind, h]
  settles {b s l} state left := by
    have again : b.settle.settle = b.settle := by simp [BlockDraft.settle, state]
    have same := BlockDraft.feed_of_settles (.outline k) state left
    simp only [OutlineDraft.feed, OutlineDraft.kind, same]
    cases b.settle.feed (.outline k) l with
    | leaves =>
      simp only [OutlineDraft.accept, again]
      cases l.kind <;> rfl
    | _ => rfl
  close_eq {b s} state := by
    cases s with
    | plain s =>
      rw [OutlineDraft.close_of_none (o := ⟨k, b, none⟩) (BlockDraft.close_of_plain state) rfl]
      rfl
    | quoting s d =>
      exact OutlineDraft.close_of_open_block (o := ⟨k, b, none⟩) (BlockDraft.close_of_quoting state)

/-- The draft of an outline reads its block or its examples. The descent is back in the outline
where the examples leave the next line. -/
inductive OutlineMatches : OpenOutline → OutlineDraft → List Line → Prop
  | block (k : OutlineKeyword) (b : Block) (ls : List Line) :
      OutlineMatches ⟨k, b, none⟩ ⟨k, b.draft, none⟩ ls
  | examples (k : OutlineKeyword) (b : Block) (e : ExamplesDraft) (ls : List Line)
      (left : ∀ l ∈ ls.head?, e.feed l = .leaves) :
      OutlineMatches ⟨k, b, some e.close⟩ ⟨k, b.draft, some e⟩ ls

theorem OutlineMatches.closes {o : OpenOutline} {t : OutlineDraft} (h : OutlineMatches o t ls) :
    o.outline = t.close.mapError .violation := by
  cases h with
  | block k b =>
    rw [OutlineDraft.close_of_none (BlockDraft.close_of_none rfl) rfl]
    rfl
  | examples k b e =>
    rw [OutlineDraft.close_of_some (BlockDraft.close_of_none rfl) rfl]
    rfl

/-- While examples are read, the draft of the outline has them. -/
theorem readOut_examples {o : OutlineDraft} {e : ExamplesDraft} {x : Examples} {rest : List Line}
    (read : readOut ExamplesDraft.feed closeExamples e ls = .ok (x, rest)) :
    ∃ e' : ExamplesDraft, x = e'.close ∧ (∀ l ∈ rest.head?, e'.feed l = .leaves) ∧
      readOut OutlineDraft.feed OutlineDraft.close { o with examples := some e } ls =
        readOut OutlineDraft.feed OutlineDraft.close { o with examples := some e' } rest := by
  induction ls generalizing e with
  | nil =>
    cases read
    exact ⟨e, rfl, by simp, rfl⟩
  | cons l ls ih =>
    cases fed : e.feed l with
    | takes e' =>
      rw [readOut_of_takes fed] at read
      obtain ⟨e'', closed, left, same⟩ := ih read
      refine ⟨e'', closed, left, ?_⟩
      rw [← same]
      exact readOut_of_takes (by simp [OutlineDraft.feed, fed])
    | leaves =>
      rw [readOut_of_leaves fed (show closeExamples e = .ok e.close from rfl)] at read
      cases read
      exact ⟨e, rfl, by simpa using fed, rfl⟩
    | rejects v =>
      rw [readOut_of_rejects fed] at read
      cases read

theorem readOut_examples_error {o : OutlineDraft} {e : ExamplesDraft} {v : Violation}
    (broken : readOut ExamplesDraft.feed closeExamples e ls = .error v) :
    readOut OutlineDraft.feed OutlineDraft.close { o with examples := some e } ls = .error v := by
  induction ls generalizing e with
  | nil => cases broken
  | cons l ls ih =>
    cases fed : e.feed l with
    | takes e' =>
      rw [readOut_of_takes fed] at broken
      rw [← ih broken]
      exact readOut_of_takes (by simp [OutlineDraft.feed, fed])
    | leaves =>
      rw [readOut_of_leaves fed (show closeExamples e = .ok e.close from rfl)] at broken
      cases broken
    | rejects w =>
      rw [readOut_of_rejects fed] at broken
      cases broken
      exact readOut_of_rejects (by simp [OutlineDraft.feed, fed])

/-- A header of examples begins the examples of an outline that has none. -/
theorem outlineTurn_examples_agrees {k : OutlineKeyword} {b : Block} {ek : ExamplesKeyword}
    (kind : l.kind = .examples ek) :
    TurnAgrees OutlineDraft.feed OutlineDraft.close OpenOutline.outline OutlineMatches outlineTurn
      ⟨k, b, none⟩ ⟨k, b.draft, none⟩ l ls := by
  have begun : OutlineDraft.feed ⟨k, b.draft, none⟩ l =
      .takes ⟨k, b.draft, some (.start ek l)⟩ := by
    have left : b.draft.feed (.outline k) l = .leaves :=
      Block.draft_leaves (by simp [kind, Kind.endedBy])
    have settled : b.draft.settle = b.draft := rfl
    simp [OutlineDraft.feed, OutlineDraft.kind, left, OutlineDraft.accept, kind, settled]
  cases examples_agrees kind ls with
  | takes t descent_eq draft_eq =>
    obtain ⟨e, closed, left, same⟩ := readOut_examples (o := ⟨k, b.draft, none⟩) draft_eq
    refine .goesOn (t.map fun x => ⟨k, b, some x⟩) ⟨k, b.draft, some e⟩ ?_ ?_ ?_
    · simp [outlineTurn, kind, descent_eq, Slot.put, bind, Except.bind, Taken.andThen, pure,
        Except.pure, Taken.map]
    · rw [readOut_of_takes begun]
      exact same
    · simp only [Taken.map, closed]
      exact .examples k b e _ left
  | breaksOff v descent_eq draft_eq =>
    refine .breaksOff v ?_ ?_
    · simp [outlineTurn, kind, descent_eq, bind, Except.bind]
    · rw [readOut_of_takes begun]
      exact readOut_examples_error (o := ⟨k, b.draft, none⟩) draft_eq

/-- Any other line is one for the block of the outline. -/
theorem outlineTurn_block_agrees {k : OutlineKeyword} {b : Block}
    (kind : ∀ ek, l.kind ≠ .examples ek) :
    TurnAgrees OutlineDraft.feed OutlineDraft.close OpenOutline.outline OutlineMatches outlineTurn
      ⟨k, b, none⟩ ⟨k, b.draft, none⟩ l ls := by
  have turn : outlineTurn ⟨k, b, none⟩ l ls =
      (blockTurn (.outline k) b l ls).map fun t => t.map fun t => t.map fun b => ⟨k, b, none⟩ := by
    cases hk : l.kind with
    | examples ek => exact absurd hk (kind ek)
    | _ => simp only [outlineTurn, hk]; cases blockTurn (.outline k) b l ls <;> rfl
  have left : (Kind.outline k).endedBy l.kind = true →
      OutlineDraft.feed ⟨k, b.draft, none⟩ l = .leaves := by
    intro ended
    simp only [OutlineDraft.feed, OutlineDraft.kind, Block.draft_leaves ended, OutlineDraft.accept]
    cases hk : l.kind with
    | examples ek => exact absurd hk (kind ek)
    | _ => rfl
  have closes : OpenOutline.outline ⟨k, b, none⟩ =
      (OutlineDraft.close ⟨k, b.draft, none⟩).mapError .violation :=
    (OutlineMatches.block k b []).closes
  have agrees : TurnAgrees OutlineDraft.feed OutlineDraft.close
      (fun b => OpenOutline.outline ⟨k, b, none⟩) (fun b t _ => t = ⟨k, b.draft, none⟩)
      (blockTurn (.outline k)) b ⟨k, b.draft, none⟩ l ls :=
    blockTurn_agrees (hosts_outline k) left closes
  cases agrees with
  | ends turn_eq left closes => exact .ends (by rw [turn, turn_eq]; rfl) left closes
  | goesOn next t' turn_eq draft_eq matched =>
    refine .goesOn (next.map fun b => ⟨k, b, none⟩) t' (by rw [turn, turn_eq]; rfl) draft_eq ?_
    rw [matched]
    exact .block k next.value next.rest
  | breaksOff v turn_eq draft_eq => exact .breaksOff v (by rw [turn, turn_eq]; rfl) draft_eq

theorem outlineTurn_agrees {o : OpenOutline} {t : OutlineDraft}
    (h : OutlineMatches o t (l :: ls)) :
    TurnAgrees OutlineDraft.feed OutlineDraft.close OpenOutline.outline OutlineMatches outlineTurn
      o t l ls := by
  have closes := h.closes
  cases h with
  | block k b =>
    by_cases kind : ∃ ek, l.kind = .examples ek
    · exact outlineTurn_examples_agrees kind.choose_spec
    · exact outlineTurn_block_agrees fun ek hk => kind ⟨ek, hk⟩
  | examples k b e _ left =>
    -- examples leave a header only, so the outline takes no line again
    have gone : e.feed l = .leaves := left l rfl
    have ended := ExamplesDraft.endedBy_of_leaves gone
    cases kind : l.kind with
    | examples ek =>
      refine .of_rejects (.duplicateExamples l.number l.kind (.outline k) b.header.line) ?_ ?_
      · simp [outlineTurn, kind]
      · simp [OutlineDraft.feed, gone, OutlineDraft.accept, kind, OutlineDraft.kind, Block.draft]
    | _ =>
      refine .ends ?_ ?_ closes
      · simp_all [outlineTurn, blockTurn, Kind.endedBy, bind, Except.bind, pure, Except.pure]
      · simp [OutlineDraft.feed, gone, OutlineDraft.accept, kind]

/-- An outline is read by descent as by its draft. -/
theorem outline_agrees {k : OutlineKeyword} (kind : l.kind = .outline k) (ls : List Line) :
    Agrees (outline l ls) (readOut OutlineDraft.feed OutlineDraft.close (.start k l) ls) := by
  rw [outline, expect_of_eq_some (a := k) (by simp [outline?, kind])]
  exact agrees_loop OutlineMatches (fun o t h => h.closes) (fun o t l ls => outlineTurn_agrees)
    (.block k ⟨l.header, []⟩ ls)

/-! ## Rules -/

/-- The draft of the rule, between its scenarios. -/
def ruleDraft (r : Rule) : RuleDraft :=
  ⟨r.header, r.scenarios, none⟩

theorem close_ruleDraft (r : Rule) : (ruleDraft r).close = .ok r :=
  RuleDraft.close_of_closeScenarios (RuleDraft.closeScenarios_of_none rfl)

theorem nested_scenario_rule (header : Header) (scenarios : List Scenario) :
    Nested ScenarioDraft.feed ScenarioDraft.close RuleDraft.feed RuleDraft.close
      (fun s => ⟨header, scenarios, some s⟩) (fun s => ⟨header, scenarios ++ [s], none⟩) where
  takes fed := by simp [RuleDraft.feed, fed]
  rejects fed := by simp [RuleDraft.feed, fed]
  leaves {s l a} left closed := by
    have scenarios := RuleDraft.closeScenarios_of_some
      (r := ⟨header, scenarios, some s⟩) rfl closed
    simp [RuleDraft.feed, left, RuleDraft.settle_of_closeScenarios scenarios]
  leaves_open {s l v} left lacking := by
    have closed := ScenarioDraft.close_of_block
      (BlockDraft.close_of_leaves (ScenarioDraft.block_leaves left))
    rw [lacking] at closed
    cases closed
  close_eq s := by
    cases closed : s.close with
    | ok a =>
      rw [RuleDraft.close_of_closeScenarios (RuleDraft.closeScenarios_of_some rfl closed)]
      exact (close_ruleDraft ⟨header, scenarios ++ [a]⟩).symm
    | error v => exact RuleDraft.close_of_open (RuleDraft.closeScenarios_of_open rfl closed)

theorem ruleTurn_agrees (r : Rule) (l : Line) (ls : List Line) :
    TurnAgrees RuleDraft.feed RuleDraft.close .ok (fun r t _ => t = ruleDraft r) ruleTurn r
      (ruleDraft r) l ls := by
  cases kind : l.kind with
  | description =>
    refine .of_takes { r with header := r.header.addDescription l.description } ?_ ?_ rfl
    · simp [ruleTurn, kind]
    · simp [RuleDraft.feed, RuleDraft.accept, ruleDraft, kind]
  | comment =>
    refine .of_takes { r with header := r.header.addComment l.comment } ?_ ?_ rfl
    · simp [ruleTurn, kind]
    · simp [RuleDraft.feed, RuleDraft.accept, ruleDraft, kind]
  | scenario k =>
    have first : (ruleDraft r).feed l = .takes ⟨r.header, r.scenarios, some (.start k l)⟩ := by
      simp [RuleDraft.feed, RuleDraft.accept, ruleDraft, kind]
    refine turnAgrees_of_nested (nested_scenario_rule r.header r.scenarios) first
      (scenario_agrees kind ls) (f := fun s => { r with scenarios := r.scenarios ++ [s] }) ?_
      fun s _ => rfl
    simp [ruleTurn, kind]
  | _ =>
    by_cases ended : Kind.rule.endedBy l.kind = true
    · refine .ends ?_ ?_ (by rw [close_ruleDraft]; rfl)
      · simp_all [ruleTurn]
      · simp_all [RuleDraft.feed, RuleDraft.accept, ruleDraft]
    · refine .of_rejects (l.unexpected .rule) ?_ ?_
      · simp_all [ruleTurn]
      · simp_all [RuleDraft.feed, RuleDraft.accept, ruleDraft]

/-- A rule is read by descent as by its draft. -/
theorem rule_agrees (kind : l.kind = .rule) (ls : List Line) :
    Agrees (rule l ls) (readOut RuleDraft.feed RuleDraft.close (.start l) ls) := by
  rw [rule, expect_of_eq_some (a := ()) (by simp [only, kind])]
  refine agrees_loop_ok (fun r t _ => t = ruleDraft r) ?_ ?_ rfl
  · rintro r t rfl
    rw [close_ruleDraft]
    rfl
  · rintro r t l ls rfl
    exact ruleTurn_agrees r l ls

/-! ## Features -/

/-- A part inside of a feature. -/
theorem nested_part {feed : σ → Line → Verdict σ} {close : σ → Except Violation α}
    {part : σ → Part} {add : α → FeatureDraft} {f : FeatureDraft}
    (feeds : ∀ s l, (part s).feed l = (feed s l).map part)
    (settles : ∀ s, FeatureDraft.settle { f with part := part s } = (close s).map add)
    (opening : ∀ a, (add a).part = .opening) :
    Nested feed close FeatureDraft.verdict FeatureDraft.finish (fun s => { f with part := part s })
      add where
  takes {s s' l} fed :=
    FeatureDraft.verdict_of_ok (by simp only [FeatureDraft.feed, feeds, fed, Verdict.map])
  rejects {s l v} fed :=
    FeatureDraft.verdict_of_error (by simp only [FeatureDraft.feed, feeds, fed, Verdict.map])
  leaves {s l a} left closed := by
    have partLeft : (part s).feed l = .leaves := by rw [feeds, left, Verdict.map]
    have settled : FeatureDraft.settle { f with part := part s } = .ok (add a) := by
      rw [settles, closed, Except.map]
    simp only [FeatureDraft.verdict, FeatureDraft.feed_of_leaves partLeft settled,
      FeatureDraft.feed_of_opening (opening a)]
  leaves_open {s l v} left lacking := by
    refine FeatureDraft.verdict_of_error ?_
    simp only [FeatureDraft.feed, feeds, left, Verdict.map, settles, lacking, Except.map, bind,
      Except.bind]
  close_eq s := by
    cases closed : close s with
    | ok a =>
      simp only [FeatureDraft.finish, settles, closed, Except.map, bind, Except.bind,
        FeatureDraft.settle_of_opening (opening a)]
    | error v => simp only [FeatureDraft.finish, settles, closed, Except.map, bind, Except.bind]

/-- The draft of the feature, between its parts. -/
def featureDraft (f : Feature) : FeatureDraft :=
  ⟨f.header, f.background, f.items, .opening⟩

section Feature

variable {f : Feature}

theorem takes_of_accept {g : FeatureDraft} (h : (featureDraft f).accept l = .ok g) :
    (featureDraft f).verdict l = .takes g :=
  FeatureDraft.verdict_of_ok h

theorem rejects_of_accept {v : Violation} (h : (featureDraft f).accept l = .error v) :
    (featureDraft f).verdict l = .rejects v :=
  FeatureDraft.verdict_of_error h

/-- The draft of a feature agrees with a turn. -/
abbrev FeatureTurnAgrees (f : Feature) (l : Line) (ls : List Line) : Prop :=
  TurnAgrees FeatureDraft.verdict FeatureDraft.finish .ok (fun f t _ => t = featureDraft f)
    featureTurn f (featureDraft f) l ls

theorem featureTurn_background_agrees (kind : l.kind = .background) :
    FeatureTurnAgrees f l ls := by
  cases held : f.background with
  | some b =>
    refine .of_rejects (.duplicateBackground l.number b.header.line) ?_ (rejects_of_accept ?_)
    · simp [featureTurn, kind, held]
    · simp [FeatureDraft.accept, kind, featureDraft, held]
  | none =>
    have nested : Nested (BlockDraft.feed .background) BlockDraft.closeBackground
        FeatureDraft.verdict FeatureDraft.finish
        (fun b => { featureDraft f with part := .background b })
        (fun b => featureDraft { f with background := some b }) := by
      refine nested_part (fun _ _ => rfl) (fun b => ?_) fun _ => rfl
      cases closed : b.closeBackground with
      | ok c => exact FeatureDraft.settle_of_background rfl closed
      | error v => exact FeatureDraft.settle_of_open_background rfl closed
    refine turnAgrees_of_nested nested (takes_of_accept ?_) (background_agrees kind ls) ?_
      fun b _ => rfl
    · simp [FeatureDraft.accept, kind, featureDraft, held]
    · simp only [featureTurn, kind, held]
      cases background l ls <;> rfl

/-- An item inside of a feature is read. -/
theorem featureTurn_item_agrees {feed : σ → Line → Verdict σ} {close : σ → Except Violation α}
    {s : σ} {inner : Except Halt (Taken ls α)} (part : σ → Part) (item : α → Item)
    (feeds : ∀ s l, (part s).feed l = (feed s l).map part)
    (settles : ∀ s, FeatureDraft.settle { featureDraft f with part := part s } =
      (close s).map fun a => (featureDraft f).addItem (item a))
    (begun : (featureDraft f).accept l = .ok { featureDraft f with part := part s })
    (agrees : Agrees inner (readOut feed close s ls))
    (turn_eq : featureTurn f l ls = (do return some ((← inner).map fun a => addItem f (item a)))) :
    FeatureTurnAgrees f l ls := by
  have nested := nested_part feeds settles fun _ => rfl
  exact turnAgrees_of_nested nested (takes_of_accept begun) agrees turn_eq fun a _ => rfl

theorem featureTurn_agrees (f : Feature) (l : Line) (ls : List Line) :
    FeatureTurnAgrees f l ls := by
  cases kind : l.kind with
  | description =>
    refine .of_takes { f with header := f.header.addDescription l.description } ?_
      (takes_of_accept ?_) rfl
    · simp [featureTurn, kind]
    · simp only [FeatureDraft.accept, kind]
      rfl
  | comment =>
    refine .of_takes { f with header := f.header.addComment l.comment } ?_
      (takes_of_accept ?_) rfl
    · simp [featureTurn, kind]
    · simp only [FeatureDraft.accept, kind]
      rfl
  | background => exact featureTurn_background_agrees kind
  | scenario k =>
    cases k with
    | scenario =>
      refine featureTurn_item_agrees .scenario .scenario (fun _ _ => rfl) (fun s => ?_) ?_
        (scenario_agrees kind ls) ?_
      · cases closed : s.close with
        | ok c => exact FeatureDraft.settle_of_scenario rfl closed
        | error v => exact FeatureDraft.settle_of_open_scenario rfl closed
      · simp [FeatureDraft.accept, kind]
      · simp [featureTurn, kind]
    | example_ =>
      refine .of_rejects (l.unexpected .feature) ?_ (rejects_of_accept ?_)
      · simp [featureTurn, kind]
      · simp [FeatureDraft.accept, kind]
  | rule =>
    refine featureTurn_item_agrees .rule .rule (fun _ _ => rfl) (fun r => ?_) ?_
      (rule_agrees kind ls) ?_
    · cases closed : r.close with
      | ok c => exact FeatureDraft.settle_of_rule rfl closed
      | error v => exact FeatureDraft.settle_of_open_rule rfl closed
    · simp [FeatureDraft.accept, kind]
    · simp [featureTurn, kind]
  | outline k =>
    refine featureTurn_item_agrees .outline .outline (fun _ _ => rfl) (fun o => ?_) ?_
      (outline_agrees kind ls) ?_
    · cases closed : o.close with
      | ok c => exact FeatureDraft.settle_of_outline rfl closed
      | error v => exact FeatureDraft.settle_of_open_outline rfl closed
    · simp [FeatureDraft.accept, kind]
    · simp [featureTurn, kind]
  | _ =>
    refine .of_rejects (l.unexpected .feature) ?_ (rejects_of_accept ?_)
    · simp [featureTurn, kind]
    · simp [FeatureDraft.accept, kind]

end Feature

/-- A feature is read by descent as by its draft. -/
theorem feature_agrees (kind : l.kind = .feature) (ls : List Line) :
    Agrees (feature l ls) (readOut FeatureDraft.verdict FeatureDraft.finish (.start l) ls) := by
  rw [feature, expect_of_eq_some (a := ()) (by simp [only, kind])]
  refine agrees_loop_ok (fun f t _ => t = featureDraft f) ?_ ?_ rfl
  · rintro f t rfl
    rfl
  · rintro f t l ls rfl
    exact featureTurn_agrees f l ls

/-! ## Documents -/

/-- Behind the header of the feature, the draft of a document reads out the feature. -/
theorem finish_feedAll_body (comments : List Comment) (f : FeatureDraft) (ls : List Line) :
    (do (← (Draft.body comments f).feedAll ls).finish) =
      (readOut FeatureDraft.verdict FeatureDraft.finish f ls).map fun p => ⟨comments, p.1⟩ := by
  induction ls generalizing f with
  | nil =>
    cases closed : f.finish with
    | ok c =>
      rw [readOut_nil closed]
      simp [Draft.feedAll, Draft.finish, bind, Except.bind, closed, Except.map, pure, Except.pure]
    | error v =>
      rw [readOut_nil_of_open closed]
      simp [Draft.feedAll, Draft.finish, bind, Except.bind, closed, Except.map]
  | cons l ls ih =>
    cases fed : f.feed l with
    | ok g =>
      rw [readOut_of_takes (FeatureDraft.verdict_of_ok fed), ← ih g]
      simp [Draft.feedAll, Draft.feed, fed, bind, Except.bind, pure, Except.pure]
    | error v =>
      rw [readOut_of_rejects (FeatureDraft.verdict_of_error fed)]
      simp [Draft.feedAll, Draft.feed, fed, bind, Except.bind, Except.map]

theorem documentAfter_eq (comments : List Comment) (ls : List Line) :
    documentAfter comments ls =
      (do (← (Draft.preamble comments).feedAll ls).finish).mapError .violation := by
  induction ls generalizing comments with
  | nil => rfl
  | cons l ls ih =>
    cases kind : l.kind with
    | comment =>
      simp only [documentAfter, kind, ih]
      simp [Draft.feedAll, Draft.feed, kind, bind, Except.bind]
    | feature =>
      have body := finish_feedAll_body comments (.start l) ls
      have begun : (Draft.preamble comments).feedAll (l :: ls) =
          (Draft.body comments (.start l)).feedAll ls := by
        simp [Draft.feedAll, Draft.feed, kind, bind, Except.bind]
      rw [begun, body]
      simp only [documentAfter, kind]
      cases feature_agrees kind ls with
      | takes t descent_eq draft_eq =>
        rw [descent_eq, draft_eq]
        rfl
      | breaksOff v descent_eq draft_eq =>
        rw [descent_eq, draft_eq]
        rfl
    | _ =>
      simp only [documentAfter, Draft.feedAll, Draft.feed, kind]
      rfl

/-- **Descent and drafts agree.** A descent gives what reading line by line gives. -/
theorem document_eq (ls : List Line) :
    document ls = (Document.ofLines ls).mapError .violation :=
  documentAfter_eq [] ls

end Descent

end Gherkin
