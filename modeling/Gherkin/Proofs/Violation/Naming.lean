import Gherkin.Proofs.Violation.Surroundings
import Gherkin.Proofs.Violation.Viable

/-!
# What a violation names

A violation gives the number and kind of the line that may not stand where it does, and of what it
breaks: the container it would be in, a block that has its table already, the step that has its
argument. `Violation.Names` tells these by the lines before the offending one. The element that
finds the violation is the one that its last section opens, so what it says is what these lines say
(`Document.violation_names`).
-/

namespace Gherkin

open Line

/-- What the violation names, if the lines `before` are in order and `next?` is the line that is
not, or none where the lines end too early. No line is taken for a header of another kind. -/
inductive Violation.Names (before : List Line) : Option Line → Violation → Prop where
  | missingFeature (preamble : ∀ l ∈ before, l.kind = .comment) :
      Names before none .missingFeature
  | expectedFeature {l : Line} (preamble : ∀ m ∈ before, m.kind = .comment)
      (kind : l.kind ≠ .comment ∧ l.kind ≠ .feature) :
      Names before (some l) (.expectedFeature l.number l.kind)
  | underFeature {l : Line} (kind : l.kind = .feature ∨ l.kind = .scenario .example_) :
      Names before (some l) (.unexpectedLine l.number l.kind .feature)
  | underHeader {l h : Line} (kind : l.kind ≠ .feature ∧ l.kind ≠ .scenario .example_)
      (header : (headers before).getLast? = some h) :
      Names before (some l) (.unexpectedLine l.number l.kind h.kind)
  | duplicateBackground {l b : Line} (kind : l.kind = .background)
      (only : (headers before).filter (·.kind = .background) = [b]) :
      Names before (some l) (.duplicateBackground l.number b.number)
  | emptyBackground {next? : Option Line} {h : Line} (header : (headers before).getLast? = some h)
      (kind : h.kind = .background) (empty : ∀ l ∈ sinceHeader before, l.isStep = false)
      (ended : ∀ l, next? = some l → Kind.rule.endedBy l.kind = true) :
      Names before next? (.emptyBackground h.number)
  | duplicateExamples {l o e : Line} {others : List Line} {k first : ExamplesKeyword}
      {own : OutlineKeyword} (kind : l.kind = .examples k)
      (held : headers before = others ++ [o, e]) (opened : o.kind = .outline own)
      (had : e.kind = .examples first) :
      Names before (some l) (.duplicateExamples l.number l.kind o.kind o.number)
  | missingExamples {next? : Option Line} {h : Line} {own : OutlineKeyword}
      (header : (headers before).getLast? = some h) (kind : h.kind = .outline own)
      (ended : ∀ l, next? = some l → Kind.rule.endedBy l.kind = true) :
      Names before next? (.missingExamples h.number h.kind)
  | duplicateTable {l h : Line} {k : ExamplesKeyword} (kind : l.kind = .row)
      (header : (headers before).getLast? = some h) (owner : h.kind = .examples k) :
      Names before (some l) (.duplicateTable l.number h.kind h.number)
  | duplicateArgument {l s : Line} (kind : l.kind.category = .data)
      (step : (stepLines before).getLast? = some s) :
      Names before (some l) (.duplicateArgument l.number l.kind s.number)
  | unterminatedDocString {f : Line} (fence : openFence? before = some f) :
      Names before none (.unterminatedDocString f.number)

variable {l : Line} {v : Violation} {before lead quoted : List Line} {done ss : List Section}
  {s : Section}

/-- A line that ends nothing is no header of a feature and no example. -/
theorem Kind.ne_of_not_endedBy {k : Kind} (h : Kind.rule.endedBy k = false) :
    k ≠ .feature ∧ k ≠ .scenario .example_ := by
  constructor <;>
  · rintro rfl
    cases h

theorem Violation.Names.unexpected (cut : Cut before lead (done ++ [s]) quoted)
    (inner : Kind.rule.endedBy l.kind = false) :
    (l.unexpected s.header.kind).Names before (some l) :=
  .underHeader (Kind.ne_of_not_endedBy inner) cut.last_header

/-! ## Blocks and examples -/

namespace BlockDraft

variable {b : BlockDraft}

theorem Reads.line_eq (h : b.Reads s quoted) : b.header.line = s.header.number := by
  rw [h.header]
  rfl

theorem Reads.openQuote (h : b.Reads s quoted) : OpenQuote quoted := by
  rcases h.state with ⟨-, -, -⟩ | ⟨-, -, -, reads⟩
  · exact .nothing
  · cases reads with
    | plain => exact .nothing
    | quoting _ _ opening inside => exact .below opening inside

/-- The fence of the DocString that a block is in is the first line after its section. -/
theorem Reads.open_fence (h : b.Reads s quoted) {st : Step} {d : DocDraft}
    (state : b.current = some (.quoting st d)) :
    ∃ f, quoted.head? = some f ∧ d.line = f.number := by
  rcases h.state with ⟨none, -, -⟩ | ⟨current, -, -, reads⟩
  · simp [none] at state
  · rw [current, Option.some.injEq] at state
    subst state
    cases reads with
    | quoting => exact ⟨_, rfl, rfl⟩

theorem Rejects.names (h : b.Rejects s.header.kind l v) (reads : b.Reads s quoted)
    (cut : Cut before lead (done ++ [s]) quoted) : v.Names before (some l) := by
  cases h with
  | unexpected inner => exact .unexpected cut inner
  | @argument st v state rejects =>
    rcases reads.state with ⟨none, -, -⟩ | ⟨current, ends, -, inner⟩
    · simp [none] at state
    · rw [current, Option.some.injEq] at state
      subst state
      cases inner with
      | plain inner =>
        cases rejects with
        | argument kind held =>
          rw [← inner.step]
          exact .duplicateArgument kind (cut.last_stepLine ends inner)

end BlockDraft

theorem ExamplesDraft.Rejects.names {e : ExamplesDraft} (h : e.Rejects l v) (reads : e.Reads s)
    (cut : Cut before lead (done ++ [s]) quoted) : v.Names before (some l) := by
  have own : e.kind = s.header.kind := reads.kind.symm
  cases h with
  | unexpected inner =>
    rw [own]
    exact .unexpected cut inner
  | table kind held =>
    have line : e.header.line = s.header.number := by
      rw [reads.header]
      rfl
    rw [own, line]
    exact .duplicateTable kind cut.last_header reads.kind

/-! ## Outlines and rules -/

namespace OutlineDraft

variable {o : OutlineDraft}

theorem Reads.sound (h : o.Reads ss quoted) : (∀ s ∈ ss, s.Proper) ∧ OpenQuote quoted := by
  cases h with
  | steps state kind reads => exact ⟨by simp [reads.proper], reads.openQuote⟩
  | @examples e done s steps state closed finished reads =>
    have outline : done.Proper := (finished.sound done (by simp)).1
    exact ⟨by simp [outline, reads.proper], .nothing⟩

theorem Rejects.names (h : o.Rejects l v) (reads : o.Reads ss quoted)
    (cut : Cut before lead (done ++ ss) quoted) : v.Names before (some l) := by
  cases reads with
  | steps state kind reads =>
    cases h with
    | block _ rejects =>
      rw [← kind] at rejects
      exact rejects.names reads cut
    | examples held => simp [state] at held
    | again held => simp [state] at held
  | @examples e outline s steps state closed finished reads =>
    have both : done ++ [outline, s] = (done ++ [outline]) ++ [s] := by simp
    cases h with
    | block held => simp [state] at held
    | examples held rejects =>
      rw [state, Option.some.injEq] at held
      subst held
      rw [both] at cut
      exact rejects.names reads cut
    | @again e k held kind =>
      have told : outline.container = ⟨o.kind, o.block.header, steps, none⟩ := by
        simpa using finished.told
      have own : o.kind = outline.header.kind := (congrArg Container.kind told).symm
      have line : o.block.header.line = outline.header.number :=
        (congrArg (·.header.line) told).symm
      rw [own, line]
      exact .duplicateExamples kind (by rw [cut.headers_eq, List.map_append]; rfl) own.symm
        reads.kind

end OutlineDraft

namespace RuleDraft

variable {r : RuleDraft}

theorem Reads.sound (h : r.Reads ss quoted) : (∀ s ∈ ss, s.Proper) ∧ OpenQuote quoted := by
  cases h with
  | notes state fresh kind reads => exact ⟨by simp [reads.proper], .nothing⟩
  | @scenario c done s quoted state finished kind reads =>
    refine ⟨?_, reads.openQuote⟩
    intro t ht
    rcases List.mem_append.1 ht with ht | ht
    · exact (finished.sound t ht).1
    · rw [List.mem_singleton.1 ht]
      exact reads.proper

theorem Rejects.names (h : r.Rejects l v) (reads : r.Reads ss quoted)
    (cut : Cut before lead (done ++ ss) quoted) : v.Names before (some l) := by
  cases reads with
  | notes state fresh kind reads =>
    cases h with
    | unexpected _ inner =>
      rw [← kind]
      exact .unexpected cut inner
    | scenario held => simp [state] at held
  | scenario state finished kind reads =>
    cases h with
    | unexpected held => simp [state] at held
    | scenario held rejects =>
      rw [state, Option.some.injEq] at held
      subst held
      rw [← kind] at rejects
      rw [← List.append_assoc] at cut
      exact rejects.names reads cut

end RuleDraft

/-! ## Parts -/

namespace Part

variable {p : Part}

theorem Reads.sound (h : p.Reads ss quoted) : (∀ s ∈ ss, s.Proper) ∧ OpenQuote quoted := by
  cases h with
  | background kind reads => exact ⟨by simp [reads.proper], reads.openQuote⟩
  | scenario keyword kind reads => exact ⟨by simp [reads.proper], reads.openQuote⟩
  | rule reads => exact reads.sound
  | outline reads => exact reads.sound

theorem Rejects.names (h : p.Rejects l v) (reads : p.Reads ss quoted)
    (cut : Cut before lead (done ++ ss) quoted) : v.Names before (some l) := by
  cases reads with
  | background kind reads =>
    cases h with
    | background rejects =>
      rw [← kind] at rejects
      exact rejects.names reads cut
  | scenario keyword kind reads =>
    cases h with
    | scenario rejects =>
      rw [← kind] at rejects
      exact rejects.names reads cut
  | rule reads =>
    cases h with
    | rule rejects => exact rejects.names reads cut
  | outline reads =>
    cases h with
    | outline rejects => exact rejects.names reads cut

/-- The fence of the DocString that a part is in is the first line after its sections. -/
theorem Reads.open_fence (h : p.Reads ss quoted) {b : BlockDraft} (block : p.block? = some b)
    {st : Step} {d : DocDraft} (state : b.current = some (.quoting st d)) :
    ∃ f, quoted.head? = some f ∧ d.line = f.number := by
  cases h with
  | background kind reads =>
    cases block
    exact reads.open_fence state
  | scenario keyword kind reads =>
    cases block
    exact reads.open_fence state
  | rule reads =>
    obtain ⟨c, hc, rfl⟩ := Option.map_eq_some_iff.1 block
    cases reads with
    | notes none => simp [none] at hc
    | scenario held finished kind reads =>
      rw [held, Option.some.injEq] at hc
      subst hc
      exact reads.open_fence state
  | outline reads =>
    cases block
    cases reads with
    | steps held kind reads => exact reads.open_fence state
    | examples held closed =>
      rw [BlockDraft.close_of_quoting state] at closed
      cases closed

/-- What a part lacks is named where the lines end, and by the line that the part leaves. -/
theorem Lacks.names (h : p.Lacks v) (reads : p.Reads ss quoted)
    (cut : Cut before lead (done ++ ss) quoted) {next? : Option Line}
    (ended : ∀ l, next? = some l → p.feed l = .leaves ∧ Kind.rule.endedBy l.kind = true) :
    v.Names before next? := by
  have header : ∀ l, next? = some l → Kind.rule.endedBy l.kind = true := fun l hl => (ended l hl).2
  cases h with
  | fence block state =>
    cases next? with
    | some l => exact absurd state (reads.not_quoting (ended l rfl).1 block)
    | none =>
      obtain ⟨f, opened, line⟩ := reads.open_fence block state
      rw [line]
      exact .unterminatedDocString (cut.openFence?_eq.trans opened)
  | @step b closed =>
    cases reads with
    | @background _ s _ kind reads =>
      have noSteps : stretches s.body = [] := by
        simpa [Section.steps] using (reads.close closed).2
      rw [reads.line_eq]
      refine .emptyBackground cut.last_header kind ?_ header
      rw [cut.sinceHeader_eq]
      exact fun l hl => not_isStep_of_stretches noSteps hl
  | examples closed state =>
    cases reads with
    | outline reads =>
      cases reads with
      | steps _ kind reads =>
        rw [reads.line_eq, ← kind]
        exact .missingExamples cut.last_header kind header
      | examples held => simp [state] at held

end Part

/-! ## Features and documents -/

/-- The background among the containers of an entry, if it is one. -/
theorem Entry.filter_background (e : Entry) :
    e.containers.filter (·.kind = .background) = e.background?.toList.map Background.container := by
  rcases e with b | ⟨s | r | o⟩ <;>
    simp [Entry.containers, Entry.background?, Item.containers, Background.container,
      Scenario.container, Examples.container]

namespace FeatureDraft

variable {f : FeatureDraft} {entries : List Entry}

/-- The background of a feature was told by the only section that a background opens. -/
theorem Told.background_section (h : f.Told ss entries) {b : Background}
    (held : f.background = some b) :
    ∃ s, ss.filter (·.header.kind = .background) = [s] ∧ s.header.number = b.header.line := by
  have among : (entries.flatMap Entry.containers).filter (·.kind = .background) =
      (entries.filterMap Entry.background?).map Background.container := by
    rw [List.filter_flatMap, List.filterMap_eq_flatMap_toList, List.map_flatMap]
    exact List.flatMap_congr fun e _ => e.filter_background
  have told : (ss.map Section.container).filter (·.kind = .background) = [b.container] := by
    rw [h.finished.told, List.filter_cons_of_neg (by simp), among, h.background, held]
    rfl
  rw [List.filter_map, List.map_eq_singleton_iff] at told
  obtain ⟨s, only, container⟩ := told
  exact ⟨s, only, congrArg (·.header.line) container⟩

theorem Reads.sound (h : f.Reads ss quoted) : (∀ s ∈ ss, s.Proper) ∧ OpenQuote quoted := by
  cases h with
  | opening state none fresh kind reads => exact ⟨by simp [reads.proper], .nothing⟩
  | part begun told reads =>
    obtain ⟨proper, quoted⟩ := reads.sound
    refine ⟨?_, quoted⟩
    intro s hs
    rcases List.mem_append.1 hs with hs | hs
    · exact (told.finished.sound s hs).1
    · exact proper s hs

/-- What has been read of a document is cut by the sections of its feature. -/
theorem Reads.cut (h : f.Reads ss quoted) (comments : ∀ l ∈ lead, l.kind = .comment) :
    Cut (lead ++ Section.written ss quoted) lead ss quoted :=
  ⟨rfl, comments, h.sound.1, h.sound.2⟩

/-- What a feature lacks is named where the lines end, and by the line that its part leaves. -/
theorem names_of_settle (lacking : f.settle = .error v) (reads : f.Reads ss quoted)
    (cut : Cut before lead ss quoted) {next? : Option Line}
    (left : ∀ l, next? = some l → f.part.feed l = .leaves) : v.Names before next? := by
  cases reads with
  | opening state => simp [settle_of_opening state] at lacking
  | part begun told reads =>
    refine (lacks_of_settle lacking).names reads cut ?_
    exact fun l hl => ⟨left l hl, endedBy_of_part_leaves begun (left l hl)⟩

theorem Rejects.names (h : f.Rejects l v) (reads : f.Reads ss quoted)
    (cut : Cut before lead ss quoted) : v.Names before (some l) := by
  cases h with
  | part rejects =>
    cases reads with
    | opening state =>
      rw [state] at rejects
      cases rejects
    | part begun told reads => exact rejects.names reads cut
  | unsettled left lacking =>
    refine names_of_settle lacking reads cut ?_
    rintro m hm
    cases hm
    exact left
  | background settled kind held =>
    obtain ⟨-, entries, told, -⟩ := settled.told reads
    obtain ⟨s, only, line⟩ := told.background_section held
    rw [← line]
    refine .duplicateBackground kind ?_
    rw [cut.headers_eq, List.filter_map]
    exact congrArg (List.map Section.header) only
  | unexpected place =>
    by_cases outer : l.kind = .feature ∨ l.kind = .scenario .example_
    · exact .underFeature outer
    · have opening : f.part = .opening := place.resolve_right outer
      obtain ⟨s, rfl, -, -, -, kind, -⟩ := reads.notes opening
      rw [Line.unexpected, ← kind]
      exact .underHeader (not_or.1 outer) (by simp [cut.headers_eq])

end FeatureDraft

namespace Draft

variable {d : Draft}

theorem Rejects.names (h : d.Rejects l v) (reads : d.Reads before) :
    v.Names before (some l) := by
  cases h with
  | preamble kind =>
    cases reads with
    | preamble comments => exact .expectedFeature comments kind
  | body rejects =>
    cases reads with
    | body comments reads => exact rejects.names reads (reads.cut comments)

theorem Lacks.names (h : d.Lacks v) (reads : d.Reads before) : v.Names before none := by
  cases h with
  | preamble =>
    cases reads with
    | preamble comments => exact .missingFeature comments
  | body lacking =>
    cases reads with
    | body comments reads =>
      exact FeatureDraft.names_of_settle lacking reads (reads.cut comments) (by simp)

end Draft

namespace Document

variable {ls : List Line} {i j : Nat}

/-- The lines before the place are viable, and no longer so with the line at the place, unless
they are all there are. -/
structure Offends (ls : List Line) (i : Nat) : Prop where
  le : i ≤ ls.length
  viable : Viable (ls.take i)
  dead : i < ls.length → ¬ Viable (ls.take (i + 1))

/-- Lines offend at one place. -/
theorem Offends.le_of_offends (h : Offends ls i) (other : Offends ls j) : j ≤ i := by
  by_contra later
  refine h.dead (by have := other.le; omega) ?_
  have shorter : (ls.take j).take (i + 1) = ls.take (i + 1) := by
    rw [List.take_take, Nat.min_eq_left (by omega)]
  rw [← shorter]
  exact other.viable.take _

theorem Offends.eq (h : Offends ls i) (other : Offends ls j) : j = i :=
  Nat.le_antisymm (h.le_of_offends other) (other.le_of_offends h)

/-- **Diagnostics.** Lines that are no document offend at one place, be it a line or their end, and
the violation names what stands there and before it. -/
theorem violation_names (h : ofLines ls = .error v) :
    ∃ i, (∀ j, Offends ls j ↔ j = i) ∧ v.Names (ls.take i) ls[i]? := by
  have single : ∀ {i}, Offends ls i → ∀ j, Offends ls j ↔ j = i := by
    rintro i here j
    refine ⟨here.eq, ?_⟩
    rintro rfl
    exact here
  rcases stops h with ⟨d, fed, lacking⟩ | ⟨i, hi, d, fed, rejected, stopped⟩
  · have here : Offends ls ls.length :=
      ⟨le_rfl, by simpa using viable_iff.2 ⟨d, fed⟩, fun less => absurd less (lt_irrefl _)⟩
    refine ⟨ls.length, single here, ?_⟩
    simpa using (Draft.lacks_of_finish lacking).names (Draft.reads_of_feedAll fed)
  · have here : Offends ls i :=
      ⟨hi.le, viable_iff.2 ⟨d, fed⟩, fun _ => not_viable_of_error stopped⟩
    refine ⟨i, single here, ?_⟩
    rw [List.getElem?_eq_getElem hi]
    exact (Draft.rejects_of_feed rejected).names (Draft.reads_of_feedAll fed)

end Document

/-- The lines of a scenario whose step has a DocString, which quotes a header and a step, and then
a row. -/
def quotingLines : List Line :=
  [⟨.feature, "F", 1, "Feature: F"⟩, ⟨.scenario .scenario, "S", 2, "Scenario: S"⟩,
   ⟨.step .given, "x", 3, "Given x"⟩, ⟨.fence .quotes, "", 4, "\"\"\""⟩,
   ⟨.rule, "R", 5, "Rule: R"⟩, ⟨.step .when, "y", 6, "When y"⟩, ⟨.fence .backticks, "", 7, "```"⟩,
   ⟨.row, "|a|", 8, "|a|"⟩]

theorem quotingLines_violation_names :
    Document.ofLines quotingLines = .error (.duplicateArgument 8 .row 3) ∧
      ∃ i, (∀ j, Document.Offends quotingLines j ↔ j = i) ∧
        (Violation.duplicateArgument 8 .row 3).Names (quotingLines.take i) quotingLines[i]? :=
  ⟨rfl, Document.violation_names rfl⟩

end Gherkin
