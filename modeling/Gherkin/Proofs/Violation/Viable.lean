import Gherkin.Proofs.Draft.Rejecting
import Gherkin.Proofs.Grammar.Completion
import Mathlib.Logic.Basic

/-!
# The first violation

Lines are viable if some lines after them make a document. Reading stops right where lines are no
longer viable (`viable_iff`): every draft that reading reaches can be completed, so a violation is
found neither late nor early. `Document.first_violation` says which violations the end of the lines
shows and which a line shows.
-/

namespace Gherkin

namespace Violation

/-- Something is missing where the lines end. -/
def isLack : Violation → Bool
  | .missingFeature | .emptyBackground _ | .missingExamples .. | .unterminatedDocString _ => true
  | _ => false

/-- A line stands where it may not. -/
def isMisplaced : Violation → Bool
  | .expectedFeature .. | .duplicateBackground .. | .duplicateExamples .. | .duplicateTable ..
  | .duplicateArgument .. | .unexpectedLine .. => true
  | _ => false

/-- A block ends before it is complete. -/
def isUnfinished : Violation → Bool
  | .emptyBackground _ | .missingExamples .. => true
  | _ => false

end Violation

variable {l : Line} {v : Violation}

/-! ## A line that is rejected is the misplaced one -/

theorem Step.Rejects.misplaced {s : Step} (h : s.Rejects l v) :
    v.isMisplaced = true ∧ v.line? = some l.number := by
  cases h with
  | argument => exact ⟨rfl, rfl⟩

theorem BlockDraft.Rejects.misplaced {b : BlockDraft} {own : Kind} (h : b.Rejects own l v) :
    v.isMisplaced = true ∧ v.line? = some l.number := by
  cases h with
  | argument state rejects => exact rejects.misplaced
  | unexpected => exact ⟨rfl, rfl⟩

theorem ExamplesDraft.Rejects.misplaced {e : ExamplesDraft} (h : e.Rejects l v) :
    v.isMisplaced = true ∧ v.line? = some l.number := by
  cases h with
  | table => exact ⟨rfl, rfl⟩
  | unexpected => exact ⟨rfl, rfl⟩

theorem OutlineDraft.Rejects.misplaced {o : OutlineDraft} (h : o.Rejects l v) :
    v.isMisplaced = true ∧ v.line? = some l.number := by
  cases h with
  | block state rejects => exact rejects.misplaced
  | examples state rejects => exact rejects.misplaced
  | again => exact ⟨rfl, rfl⟩

theorem RuleDraft.Rejects.misplaced {r : RuleDraft} (h : r.Rejects l v) :
    v.isMisplaced = true ∧ v.line? = some l.number := by
  cases h with
  | unexpected => exact ⟨rfl, rfl⟩
  | scenario state rejects => exact rejects.misplaced

theorem Part.Rejects.misplaced {p : Part} (h : p.Rejects l v) :
    v.isMisplaced = true ∧ v.line? = some l.number := by
  cases h with
  | background rejects => exact rejects.misplaced
  | scenario rejects => exact rejects.misplaced
  | rule rejects => exact rejects.misplaced
  | outline rejects => exact rejects.misplaced

/-! ## A part that is left lacks no fence -/

/-- A block in a DocString takes every line. -/
theorem BlockDraft.not_leaves_of_quoting {own : Kind} {b : BlockDraft} {s : Step} {d : DocDraft}
    (h : b.current = some (.quoting s d)) : b.feed own l ≠ .leaves := by
  simp [feed, h, StepDraft.feed]

/-- A part that leaves a line is in no DocString. -/
theorem Part.Reads.not_quoting {p : Part} {ss : List Section} {quoted : List Line}
    (h : p.Reads ss quoted) (left : p.feed l = .leaves) {b : BlockDraft} (block : p.block? = some b)
    {s : Step} {d : DocDraft} : b.current ≠ some (.quoting s d) := by
  intro open_
  cases h with
  | background =>
    cases block
    exact BlockDraft.not_leaves_of_quoting open_ (Verdict.map_eq_leaves_iff.1 left)
  | scenario =>
    cases block
    exact BlockDraft.not_leaves_of_quoting open_
      (ScenarioDraft.block_leaves (Verdict.map_eq_leaves_iff.1 left))
  | @rule r ss quoted reads =>
    obtain ⟨c, hc, rfl⟩ := Option.map_eq_some_iff.1 block
    have inner := Verdict.map_eq_leaves_iff.1 left
    have taken : (c.block.feed (.scenario c.keyword) l).isLeaves = false := by
      simp [BlockDraft.feed, open_, StepDraft.feed, Verdict.isLeaves]
    cases hf : c.block.feed (.scenario c.keyword) l <;>
      simp_all [RuleDraft.feed, ScenarioDraft.feed, Verdict.map, Verdict.isLeaves]
  | @outline o ss quoted reads =>
    cases block
    have inner := Verdict.map_eq_leaves_iff.1 left
    cases reads with
    | steps state =>
      simp [OutlineDraft.feed, state, BlockDraft.feed, open_, StepDraft.feed] at inner
    | examples state closed =>
      rw [BlockDraft.close_of_quoting open_] at closed
      cases closed

/-- A part that is left before it may end is a background without steps or an outline without
examples. -/
theorem Part.Lacks.unfinished {p : Part} {ss : List Section} {quoted : List Line}
    (h : p.Lacks v) (reads : p.Reads ss quoted) (left : p.feed l = .leaves) :
    v.isUnfinished = true := by
  cases h with
  | fence block state => exact absurd state (reads.not_quoting left block)
  | step => rfl
  | examples => rfl

theorem Part.Lacks.isLack {p : Part} (h : p.Lacks v) : v.isLack = true := by
  cases h <;> rfl

/-- A line that a feature rejects is misplaced, or ends a part that may not end there. -/
theorem FeatureDraft.Rejects.misplaced_or_unfinished {f : FeatureDraft} {ss : List Section}
    {quoted : List Line} (h : f.Rejects l v) (reads : f.Reads ss quoted) :
    v.isMisplaced = true ∧ v.line? = some l.number ∨
      v.isUnfinished = true ∧ Kind.rule.endedBy l.kind = true ∧ f.settle = .error v := by
  cases h with
  | part rejects => exact .inl rejects.misplaced
  | background => exact .inl ⟨rfl, rfl⟩
  | unexpected => exact .inl ⟨rfl, rfl⟩
  | unsettled left lacking =>
    have lacks := FeatureDraft.lacks_of_settle lacking
    cases reads with
    | opening state => simp [settle_of_opening state] at lacking
    | part begun told reads =>
      exact .inr ⟨lacks.unfinished reads left, endedBy_of_part_leaves begun left, lacking⟩

namespace Draft

variable {d : Draft} {ls : List Line}

theorem Rejects.misplaced_or_unfinished (h : d.Rejects l v) (reads : d.Reads ls) :
    v.isMisplaced = true ∧ v.line? = some l.number ∨
      v.isUnfinished = true ∧ Kind.rule.endedBy l.kind = true ∧ d.finish = .error v := by
  cases h with
  | preamble => exact .inl ⟨rfl, rfl⟩
  | body rejects =>
    cases reads with
    | body comments reads =>
      refine (rejects.misplaced_or_unfinished reads).imp_right ?_
      rintro ⟨unfinished, ended, lacking⟩
      refine ⟨unfinished, ended, ?_⟩
      simp [finish, FeatureDraft.finish, lacking, bind, Except.bind]

theorem Lacks.isLack (h : d.Lacks v) : v.isLack = true := by
  cases h with
  | preamble => rfl
  | body lacking => exact (FeatureDraft.lacks_of_settle lacking).isLack

/-- Reading that stops has come to a line that the draft before it rejects. -/
theorem exists_rejected (h : d.feedAll ls = .error v) :
    ∃ (i : Nat) (hi : i < ls.length) (e : Draft), d.feedAll (ls.take i) = .ok e ∧
      e.feed ls[i] = .error v ∧ d.feedAll (ls.take (i + 1)) = .error v := by
  induction ls generalizing d with
  | nil => cases h
  | cons m ms ih =>
    simp only [feedAll] at h
    cases fed : d.feed m with
    | error w =>
      rw [fed] at h
      cases h
      exact ⟨0, by simp, d, rfl, fed, by simp [feedAll, fed, bind, Except.bind]⟩
    | ok e =>
      rw [fed] at h
      obtain ⟨i, hi, e', before, rejected, stopped⟩ := ih h
      refine ⟨i + 1, by simpa using hi, e', ?_, by simpa using rejected, ?_⟩
      · simpa [feedAll, fed, bind, Except.bind] using before
      · simpa [feedAll, fed, bind, Except.bind] using stopped

end Draft

namespace Document

variable {ls ms : List Line}

/-- Some lines after these make a document. -/
def Viable (ls : List Line) : Prop :=
  ∃ ms d, ofLines (ls ++ ms) = .ok d

theorem ofLines_append {d : Draft} (h : Draft.empty.feedAll ls = .ok d) :
    ofLines (ls ++ ms) = (do (← d.feedAll ms).finish) := by
  simp [ofLines, Draft.feedAll_append, h, bind, Except.bind]

/-- Nothing after a violation counts. -/
theorem ofLines_append_of_error (h : Draft.empty.feedAll ls = .error v) :
    ofLines (ls ++ ms) = .error v := by
  simp [ofLines, Draft.feedAll_append, h, bind, Except.bind]

/-- Lines are viable if and only if they can be read. -/
theorem viable_iff : Viable ls ↔ ∃ d, Draft.empty.feedAll ls = .ok d := by
  constructor
  · rintro ⟨ms, doc, read⟩
    cases fed : Draft.empty.feedAll ls with
    | ok d => exact ⟨d, rfl⟩
    | error v =>
      rw [ofLines_append_of_error fed] at read
      cases read
  · rintro ⟨d, fed⟩
    obtain ⟨ms, doc, read⟩ := (Draft.reads_of_feedAll fed).completes
    exact ⟨ms, doc, (ofLines_append fed).trans read⟩

theorem not_viable_of_error (h : Draft.empty.feedAll ls = .error v) : ¬ Viable ls := by
  rw [viable_iff, h]
  rintro ⟨d, same⟩
  cases same

/-- Lines that are no document can be read but may not end, or one of them is rejected. -/
theorem stops (h : ofLines ls = .error v) :
    (∃ d, Draft.empty.feedAll ls = .ok d ∧ d.finish = .error v) ∨
      ∃ (i : Nat) (hi : i < ls.length) (d : Draft), Draft.empty.feedAll (ls.take i) = .ok d ∧
        d.feed ls[i] = .error v ∧ Draft.empty.feedAll (ls.take (i + 1)) = .error v := by
  cases fed : Draft.empty.feedAll ls with
  | ok d =>
    refine .inl ⟨d, rfl, ?_⟩
    simpa [ofLines, fed, bind, Except.bind] using h
  | error w =>
    have same : w = v := by
      simpa [ofLines, fed, bind, Except.bind] using h
    rw [same] at fed
    exact .inr (Draft.exists_rejected fed)

/-- Lines are viable as far as they are part of viable lines. -/
theorem Viable.take (h : Viable ls) (i : Nat) : Viable (ls.take i) := by
  obtain ⟨ms, d, read⟩ := h
  refine ⟨ls.drop i ++ ms, d, ?_⟩
  rwa [← List.append_assoc, List.take_append_drop]

/-- **The first violation.** Of lines that are no document, exactly one holds. They are viable, and
the violation is something that is missing at their end. Or some line is the first after which they
are not viable, and the lines up to it have the same violation whatever follows: the line is
misplaced and the violation gives its number, or it is a header that ends a background without steps
or an outline without examples, which the lines before it lack as well. -/
theorem first_violation (h : ofLines ls = .error v) :
    Xor (Viable ls ∧ v.isLack = true)
      (∃ (i : Nat) (hi : i < ls.length),
        Viable (ls.take i) ∧ ¬ Viable (ls.take (i + 1)) ∧
        (∀ ms, ofLines (ls.take (i + 1) ++ ms) = .error v) ∧
        (v.isMisplaced = true ∧ v.line? = some ls[i].number ∨
          v.isUnfinished = true ∧ Kind.rule.endedBy ls[i].kind = true ∧
            ofLines (ls.take i) = .error v)) := by
  rcases stops h with ⟨d, fed, lacking⟩ | ⟨i, hi, d, fed, rejected, stopped⟩
  · have viable : Viable ls := viable_iff.2 ⟨d, fed⟩
    refine .inl ⟨⟨viable, (Draft.lacks_of_finish lacking).isLack⟩, ?_⟩
    rintro ⟨i, -, -, dead, -⟩
    exact dead (viable.take _)
  · have dead := not_viable_of_error stopped
    refine .inr ⟨⟨i, hi, viable_iff.2 ⟨d, fed⟩, dead,
      fun ms => ofLines_append_of_error stopped, ?_⟩, fun viable => dead (viable.1.take _)⟩
    refine ((Draft.rejects_of_feed rejected).misplaced_or_unfinished
      (Draft.reads_of_feedAll fed)).imp_right ?_
    rintro ⟨unfinished, ended, lacking⟩
    refine ⟨unfinished, ended, ?_⟩
    simpa [ofLines, fed, bind, Except.bind] using lacking

/-- Reading takes no line for a header of another kind. -/
theorem ofLines_ne_kindMismatch {line : Nat} {expected : String} {found : Kind} :
    ofLines ls ≠ .error (.kindMismatch line expected found) := by
  intro h
  rcases stops h with ⟨d, -, lacking⟩ | ⟨i, hi, d, fed, rejected, -⟩
  · cases (Draft.lacks_of_finish lacking).isLack
  · rcases (Draft.rejects_of_feed rejected).misplaced_or_unfinished
      (Draft.reads_of_feedAll fed) with ⟨misplaced, -⟩ | ⟨unfinished, -⟩
    · cases misplaced
    · cases unfinished

end Document

/-- The lines of a feature whose background has no step when a scenario follows. -/
def unfinishedLines : List Line :=
  [⟨.feature, "F", 1, "Feature: F"⟩, ⟨.background, "B", 2, "Background: B"⟩,
   ⟨.scenario .scenario, "S", 3, "Scenario: S"⟩, ⟨.background, "C", 4, "Background: C"⟩]

theorem unfinishedLines_first_violation :
    Document.ofLines unfinishedLines = .error (.emptyBackground 2) ∧
      ∃ (i : Nat) (hi : i < unfinishedLines.length),
        Document.Viable (unfinishedLines.take i) ∧
        ¬ Document.Viable (unfinishedLines.take (i + 1)) ∧
        Kind.rule.endedBy unfinishedLines[i].kind = true := by
  have read : Document.ofLines unfinishedLines = .error (.emptyBackground 2) := by rfl
  refine ⟨read, ?_⟩
  rcases Document.first_violation read with ⟨⟨viable, -⟩, -⟩ | ⟨⟨i, hi, here⟩, -⟩
  · obtain ⟨d, fed⟩ := Document.viable_iff.1 viable
    cases fed
  · rcases here with ⟨viable, dead, -, ⟨misplaced, -⟩ | ⟨-, ended, -⟩⟩
    · cases misplaced
    · exact ⟨i, hi, viable, dead, ended⟩

end Gherkin
