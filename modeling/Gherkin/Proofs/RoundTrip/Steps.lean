import Gherkin.Proofs.Draft.Leaving
import Gherkin.Proofs.RoundTrip.Carried
import Gherkin.Proofs.RoundTrip.Rereading

/-!
# Reading the pages of steps

A step takes the lines of its page one after the other, and a block those of its notes and its
steps. `Verdict.run` is what an element does with several lines; each theorem here says that it
takes the lines of a page and what it has become then.
-/

namespace Gherkin

open Text Page

/-! ## Taking several lines -/

namespace Verdict

variable {feed : α → Line → Verdict α} {a b : α} {l : Line} {ls ms : List Line}

/-- What an element does with lines, up to the first one that it does not take. -/
def run (feed : α → Line → Verdict α) : α → List Line → Verdict α
  | a, [] => .takes a
  | a, l :: ls =>
    match feed a l with
    | .takes b => run feed b ls
    | v => v

@[simp] theorem run_nil : run feed a [] = .takes a := rfl

theorem run_cons (h : feed a l = .takes b) : run feed a (l :: ls) = run feed b ls := by
  simp [run, h]

theorem run_append (h : run feed a ls = .takes b) :
    run feed a (ls ++ ms) = run feed b ms := by
  induction ls generalizing a with
  | nil =>
    cases h
    rfl
  | cons l ls ih =>
    cases hl : feed a l with
    | takes c =>
      rw [run_cons hl] at h
      rw [List.cons_append, run_cons hl, ih h]
    | leaves => simp [run, hl] at h
    | rejects v => simp [run, hl] at h

/-- Lines that an element takes are taken around it. -/
theorem run_map {feed' : β → Line → Verdict β} (f : α → β)
    (around : ∀ a l b, feed a l = .takes b → feed' (f a) l = .takes (f b))
    (h : run feed a ls = .takes b) : run feed' (f a) ls = .takes (f b) := by
  induction ls generalizing a with
  | nil =>
    cases h
    rfl
  | cons l ls ih =>
    cases hl : feed a l with
    | takes c =>
      rw [run_cons hl] at h
      rw [run_cons (around a l c hl), ih h]
    | leaves => simp [run, hl] at h
    | rejects v => simp [run, hl] at h

theorem run_line (h : ls = [l]) (taken : feed a l = .takes b) : run feed a ls = .takes b := by
  rw [h, run_cons taken, run_nil]

end Verdict

open Verdict

variable {depth : Nat}

/-- Elements that are taken one after the other, where `f` says what the element around them is
when some of them have been read. -/
theorem Verdict.run_each {feed : α → Line → Verdict α} {page : β → Page} {g : β → γ} {xs : List β}
    (f : List γ → α)
    (each : ∀ x ∈ xs, ∀ before, run feed (f before) (lines (deepen depth (page x))) =
      .takes (f (before ++ [g x]))) (before : List γ) :
    run feed (f before) (lines (deepen depth (xs.flatMap page))) =
      .takes (f (before ++ xs.map g)) := by
  induction xs generalizing before with
  | nil => simp
  | cons x xs ih =>
    have first := each x List.mem_cons_self before
    have rest := ih (fun y hy => each y (List.mem_cons_of_mem x hy)) (before ++ [g x])
    rw [List.flatMap_cons, deepen_append, lines_append, run_append first, rest]
    simp

theorem Verdict.run_all {feed : α → Line → Verdict α} {page : β → Page} {g : β → γ} {xs : List β}
    (f : List γ → α)
    (each : ∀ x ∈ xs, ∀ before, run feed (f before) (lines (deepen depth (page x))) =
      .takes (f (before ++ [g x]))) :
    run feed (f []) (lines (deepen depth (xs.flatMap page))) = .takes (f (xs.map g)) := by
  simpa using run_each f each []

/-! ## Comments and tables -/

theorem Comment.lines_page {c : Comment} (h : c.Carried) :
    lines (deepen depth c.page) = [Kind.comment.lineAt depth c.text] :=
  lines_keywordLine h

theorem Row.lines_page {r : Row} (h : Kind.row.Carries r.text) :
    lines (deepen depth (Page.line r.text)) = [Kind.row.lineAt depth r.text] := by
  rw [line_row h]
  exact lines_keywordLine h

/-- The lines of a table, below an element that takes rows and comments into the table. -/
theorem Table.run_page {feed : α → Line → Verdict α} {a : α} {t : Table} (h : t.Carried)
    (f : Table → α) (start : ∀ l, l.kind = .row → feed a l = .takes (f (.start l)))
    (row : ∀ t l, l.kind = .row → feed (f t) l = .takes (f (t.addRow l.row)))
    (comment : ∀ t l, l.kind = .comment → feed (f t) l = .takes (f (t.addComment l.comment))) :
    run feed a (lines (deepen depth t.page)) = .takes (f t.unnumbered) := by
  have rows : ∀ r ∈ t.rows, Kind.row.Carries r.text := h.rows
  have begun := start (Kind.row.lineAt depth t.first.text) rfl
  let grown (others : List Row) : Table := ⟨t.first.renumber fun _ => 0, others, []⟩
  let commented (comments : List Comment) : Table := { t.unnumbered with comments }
  have others : run feed (f (grown []))
      (lines (deepen depth (t.others.flatMap fun r => Page.line r.text))) =
      .takes (f (grown (t.others.map (·.renumber fun _ => 0)))) := by
    apply run_all (fun before => f (grown before))
    intro r hr before
    exact run_line (Row.lines_page (rows r (List.mem_cons_of_mem _ hr))) (row _ _ rfl)
  have comments : run feed (f (commented []))
      (lines (deepen depth (t.comments.flatMap Comment.page))) =
      .takes (f (commented (t.comments.map Comment.unnumbered))) := by
    apply run_all (fun before => f (commented before))
    intro c hc before
    exact run_line (Comment.lines_page (h.comments c hc)) (comment _ _ rfl)
  rw [Table.page, Table.rows, List.flatMap_cons, deepen_append, deepen_append, lines_append,
    lines_append, Row.lines_page (rows t.first List.mem_cons_self), List.append_assoc,
    List.singleton_append, run_cons begun]
  exact (run_append others).trans comments

/-! ## Steps -/

namespace StepDraft

variable {s : Step}

theorem run_comments (h : ∀ c ∈ s.comments, c.Carried) :
    run feed (.plain ⟨s.keyword, 0, s.text, [], none⟩)
        (lines (deepen depth (s.comments.flatMap Comment.page))) =
      .takes (.plain ⟨s.keyword, 0, s.text, s.comments.map Comment.unnumbered, none⟩) := by
  refine run_all (fun before => StepDraft.plain ⟨s.keyword, 0, s.text, before, none⟩) ?_
  intro c hc before
  exact run_line (Comment.lines_page (h c hc)) rfl

theorem run_table {t : Table} (h : t.Carried) (held : s.argument = none) :
    run feed (.plain s) (lines (deepen depth t.page)) =
      .takes (.plain { s with argument := some (.table t.unnumbered) }) := by
  refine Table.run_page h (fun t => StepDraft.plain { s with argument := some (.table t) }) ?_ ?_ ?_
  · intro l hl
    simp [feed, feedPlain, hl, held]
  · intro t l hl
    simp [feed, feedPlain, hl]
  · intro t l hl
    simp [feed, feedPlain, hl]

/-- The lines between the fences. -/
theorem run_content {d : DocDraft} {ss : List String} (h : ∀ s ∈ ss, Quotable s)
    (margin : d.margin = 2 * depth) (empty : d.lines = []) :
    run feed (.quoting s d) (lines (deepen depth (ss.flatMap line))) =
      .takes (.quoting s { d with lines := ss.map fun s => .ofList (chomp s.toList) }) := by
  have whole : d = { d with lines := [] } := by
    rw [← empty]
  rw [whole]
  apply run_all (fun before => StepDraft.quoting s { d with lines := before })
  intro t ht before
  obtain ⟨l, hl, noFence, raw⟩ := lines_quotable depth (h t ht)
  have added : ({ d with lines := before } : DocDraft).add l =
      { d with lines := before ++ [.ofList (chomp t.toList)] } := by
    simp [DocDraft.add, raw, margin, dropMargin_indent]
  apply run_line hl
  rw [← added]
  cases hk : l.kind with
  | fence f => exact absurd hk (noFence f)
  | _ => simp [feed, feedQuoting, hk]

/-- An opening fence tells its margin, and what stands behind it. -/
theorem start_opening {d : DocString} (h : d.Carried) :
    DocDraft.start d.opening
        ((Kind.fence d.opening).lineAt depth (d.contentType.getD "")) =
      ⟨0, 2 * depth, d.opening, d.contentType, []⟩ := by
  have margin : ((Kind.fence d.opening).lineAt depth (d.contentType.getD "")).margin =
      2 * depth := by
    obtain ⟨rest, hrest⟩ := Kind.exists_keyword_append h.contentType.payload?_written
    have begins : ∃ c cs, (Kind.fence d.opening).keyword.toList = c :: cs ∧
        isBlank c = false := by
      cases d.opening
      · exact ⟨'"', ['"', '"'], by decide, by decide⟩
      · exact ⟨'`', ['`', '`'], by decide, by decide⟩
    obtain ⟨c, cs, hc, notBlank⟩ := begins
    rw [Line.margin, Kind.lineAt, String.toList_ofList, hrest, hc, List.cons_append,
      margin_indent notBlank]
  have contentType : (if (d.contentType.getD "").isEmpty then none
      else some (d.contentType.getD "")) = d.contentType := by
    have named := h.named
    cases hd : d.contentType with
    | none => rfl
    | some text =>
      rw [hd] at named
      simp_all
  rw [DocDraft.start, margin, Kind.lineAt_payload, contentType]
  rfl

theorem run_docString {d : DocString} (h : d.Carried) (held : s.argument = none) :
    run feed (.plain s) (lines (deepen depth d.page)) =
      .takes (.plain { s with argument := some (.docString d.reread) }) := by
  have opened : feed (.plain s) ((Kind.fence d.opening).lineAt depth (d.contentType.getD "")) =
      .takes (.quoting s ⟨0, 2 * depth, d.opening, d.contentType, []⟩) := by
    simp only [feed, feedPlain, held, Kind.lineAt_kind]
    rw [start_opening h]
  rw [DocString.page, line_fence, deepen_append, deepen_append, lines_append, lines_append,
    lines_keywordLine h.contentType, lines_keywordLine (carries_fence d.closing),
    List.append_assoc, List.singleton_append, run_cons opened,
    run_append (run_content h.lines rfl rfl)]
  rfl

theorem run_argument {a : Argument} (h : a.Carried) (held : s.argument = none) :
    run feed (.plain s) (lines (deepen depth a.page)) =
      .takes (.plain { s with argument := some a.reread }) := by
  cases a with
  | table t => exact run_table h held
  | docString d => exact run_docString h held

/-- A step takes what is written below its line. -/
theorem run_page {s : Step} (h : s.Carried) :
    run feed (.plain ⟨s.keyword, 0, s.text, [], none⟩)
        (lines (deepen depth (s.comments.flatMap Comment.page ++
          .ofOption Argument.page s.argument))) = .takes (.plain s.reread) := by
  rw [deepen_append, lines_append, run_append (run_comments h.comments)]
  cases ha : s.argument with
  | none =>
    simp [Page.ofOption, Step.reread, Step.unnumbered, Step.renumber, ha, Comment.unnumbered]
  | some a =>
    rw [Page.ofOption, run_argument (h.argument a ha) rfl]
    simp [Step.reread, Step.unnumbered, Step.renumber, ha, Comment.unnumbered]

end StepDraft

end Gherkin
