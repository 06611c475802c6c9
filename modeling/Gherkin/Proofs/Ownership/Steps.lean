import Gherkin.Proofs.Draft.Taking
import Gherkin.Proofs.Ownership.Extending

/-!
# Steps and blocks, by what was read of them

`StepDraft.Reads` and `BlockDraft.Reads` say what a draft is by the lines read of it: the section
of the pieces that are complete, and the lines of a DocString whose closing fence has not come.
Each line that a draft takes leads from such lines to the lines with it (`Takes.reads`), so no
line is dropped, read twice or given to another step.
-/

namespace Gherkin

namespace Stretch

/-- The stretch with one more piece. -/
def push (t : Stretch) (p : Piece) : Stretch :=
  { t with after := t.after ++ [p] }

/-- What a stretch holds of data, and where a comment right after it belongs, by the argument of
its step. -/
inductive Carries (t : Stretch) : Option Argument → Prop where
  | nothing (data : dataOf t.after = [])
      (last : lastKind (.step t.keyword) t.after = .step t.keyword) : t.Carries none
  | table {table : Table} (data : ∀ p ∈ dataOf t.after, p.kind = .row)
      (last : lastKind (.step t.keyword) t.after = .row) : t.Carries (some (.table table))
  | docString {doc : DocString} {p : Piece} {f : Fence} (data : dataOf t.after = [p])
      (kind : p.kind = .fence f) (last : lastKind (.step t.keyword) t.after = .fence f) :
      t.Carries (some (.docString doc))

/-- The stretch is what was read of the step. -/
structure Reads (t : Stretch) (s : Step) : Prop where
  line : t.line.kind = .step t.keyword
  follows : ∀ p ∈ t.after, p.follows = true
  step : t.step = s
  carries : t.Carries s.argument

variable {t : Stretch} {s s' : Step} {l : Line} {p : Piece}

theorem Carries.singleArgument {a : Option Argument} (h : t.Carries a) : t.SingleArgument := by
  cases h with
  | nothing data => simp [SingleArgument, data]
  | table data => exact .inl data
  | docString data => exact .inr ⟨_, data⟩

theorem not_isData_of_dataOf_eq_nil {ps : List Piece} (h : dataOf ps = []) (mem : p ∈ ps) :
    p.isData = false := by
  simpa [dataOf] using List.filter_eq_nil_iff.1 h p mem

theorem kind_ne_row_of_dataOf {ps : List Piece} (h : ∀ q ∈ dataOf ps, q.kind ≠ .row)
    (mem : p ∈ ps) : p.kind ≠ .row := by
  intro hp
  refine h p (List.mem_filter.2 ⟨mem, ?_⟩) hp
  simp [Piece.isData, hp, Kind.category]

theorem docString?_of_not_isData (h : p.isData = false) : p.docString? = none := by
  cases p with
  | line => rfl
  | quote => simp [Piece.isData, Piece.kind, Kind.category] at h

/-- The table of the step is that of its rows. -/
theorem tableOf_of_argument {table : Table} (h : t.argument = some (.table table)) :
    tableOf (.step t.keyword) t.after = some table := by
  simp only [argument] at h
  split at h
  · next found =>
    simp only [Option.some.injEq, Argument.table.injEq] at h
    rw [found, h]
  · simp only [Option.map_eq_some_iff, reduceCtorEq, and_false, exists_false] at h

theorem argument_of_tableOf {table : Table}
    (h : tableOf (.step t.keyword) t.after = some table) :
    t.argument = some (.table table) := by
  simp [argument, h]

theorem argument_of_no_table (h : tableOf (.step t.keyword) t.after = none) :
    t.argument = (t.after.findSome? Piece.docString?).map .docString := by
  simp [argument, h]

/-- The step of a longer stretch, by its comments and its argument. -/
theorem step_push {comments : List Comment} {a : Option Argument}
    (owned : commentsAfter Kind.ownsForStep (.step t.keyword) (t.after ++ [p]) = comments)
    (carried : (t.push p).argument = a) :
    (t.push p).step = { t.step with comments := comments, argument := a } := by
  subst owned carried
  rfl

/-- One more piece goes with a stretch if its step is told by the longer one. -/
theorem Reads.push (h : t.Reads s) (follows : p.follows = true) (step : (t.push p).step = s')
    (carries : (t.push p).Carries s'.argument) : (t.push p).Reads s' where
  line := h.line
  follows := by
    simp only [Stretch.push, List.mem_append, List.mem_singleton]
    rintro q (hq | rfl)
    · exact h.follows q hq
    · exact follows
  step := step
  carries := carries

theorem Reads.argument_eq (h : t.Reads s) : t.argument = s.argument := by
  rw [← h.step]
  rfl

theorem Reads.data_of_no_argument (h : t.Reads s) (empty : s.argument = none) :
    dataOf t.after = [] ∧ (∀ q ∈ t.after, q.kind ≠ .row) ∧
      lastKind (.step t.keyword) t.after = .step t.keyword := by
  have carries := h.carries
  rw [empty] at carries
  cases carries with
  | nothing data last =>
    refine ⟨data, ?_, last⟩
    intro q hq
    exact kind_ne_row_of_dataOf (by simp [data]) hq

/-- A comment after the line of a step or after its DocString. -/
theorem Reads.push_comment (h : t.Reads s) (kind : l.kind = .comment)
    (held : ∀ tb, s.argument ≠ some (.table tb)) :
    (t.push (.line l)).Reads (s.addComment l.comment) := by
  have noData : (Piece.line l).isData = false := by
    simp [Piece.isData, kind, Kind.category]
  have same : dataOf (t.push (.line l)).after = dataOf t.after := by
    simp [Stretch.push, dataOf_of_not_isData noData]
  have last : lastKind (.step t.keyword) (t.push (.line l)).after =
      lastKind (.step t.keyword) t.after := lastKind_snoc_comment kind
  have owned : (lastKind (.step t.keyword) t.after).ownsForStep = true ∧
      (∀ q ∈ t.after, q.kind ≠ .row) ∧ (t.push (.line l)).Carries s.argument := by
    have carries := h.carries
    generalize ha : s.argument = a at carries
    cases carries with
    | nothing data hl =>
      refine ⟨by rw [hl]; rfl, (h.data_of_no_argument ha).2.1, ?_⟩
      exact .nothing (same.trans data) (last.trans hl)
    | table => exact absurd ha (held _)
    | docString data hp hl =>
      refine ⟨by rw [hl]; rfl, ?_, .docString (same.trans data) hp (last.trans hl)⟩
      intro q hq
      exact kind_ne_row_of_dataOf (by simp [data, hp]) hq
  obtain ⟨owned, noRow, carries⟩ := owned
  refine h.push (by simp [Piece.follows, kind, Kind.category]) ?_ carries
  rw [← h.step]
  apply step_push (commentsAfter_snoc_comment kind owned)
  have noTable : tableOf (.step t.keyword) t.after = none := tableOf_eq_none noRow
  have noLonger : tableOf (.step t.keyword) (t.after ++ [.line l]) = none := by
    apply tableOf_eq_none
    simp only [List.mem_append, List.mem_singleton]
    rintro q (hq | rfl)
    · exact noRow q hq
    · simp [kind]
  show (t.push (.line l)).argument = t.argument
  rw [argument_of_no_table noTable, argument_of_no_table noLonger]
  rw [Stretch.push, List.findSome?_append]
  simp only [List.findSome?_singleton, Piece.docString?, Option.or_none]

/-- A row or a comment that goes into the table of a step. -/
theorem Reads.push_table (h : t.Reads s) {table : Table}
    (kind : l.kind = .row ∨ l.kind = .comment)
    (longer : tableOf (.step t.keyword) (t.after ++ [.line l]) = some table)
    (rows : ∀ p ∈ dataOf t.after, p.kind = .row)
    (last : l.kind = .comment → lastKind (.step t.keyword) t.after = .row) :
    (t.push (.line l)).Reads { s with argument := some (.table table) } := by
  have follows : (Piece.line l).follows = true := by
    rcases kind with hk | hk <;> simp [Piece.follows, Piece.isData, hk, Kind.category]
  refine h.push follows ?_ (.table ?_ ?_)
  · rw [← h.step]
    refine step_push ?_ (argument_of_tableOf longer)
    rcases kind with hk | hk
    · exact commentsAfter_snoc (by simp [hk])
    · exact commentsAfter_snoc_of_not_owned (by rw [last hk]; rfl)
  · simp only [Stretch.push, dataOf_append, List.mem_append]
    rintro p (hp | hp)
    · exact rows p hp
    · obtain ⟨mem, data⟩ := List.mem_filter.1 hp
      rw [List.mem_singleton] at mem
      subst mem
      rcases kind with hk | hk <;> simp_all [Piece.isData, Kind.category]
  · rcases kind with hk | hk
    · exact (lastKind_snoc (p := .line l) (by simp [hk])).trans hk
    · exact (lastKind_snoc_comment (p := .line l) hk).trans (last hk)

/-- A line that goes with a step is one more piece of its stretch. -/
theorem Reads.push_line (h : t.Reads s) (takes : s.Takes l (.plain s')) :
    (t.push (.line l)).Reads s' := by
  have table : ∀ tb, s.argument = some (.table tb) →
      tableOf (.step t.keyword) t.after = some tb ∧ (∀ p ∈ dataOf t.after, p.kind = .row) ∧
        lastKind (.step t.keyword) t.after = .row := by
    intro tb held
    have carries := h.carries
    rw [held] at carries
    cases carries with
    | table data last => exact ⟨tableOf_of_argument (h.argument_eq.trans held), data, last⟩
  cases takes with
  | tableComment kind held =>
    obtain ⟨shorter, rows, last⟩ := table _ held
    exact h.push_table (.inr kind) (tableOf_snoc_comment kind shorter last) rows fun _ => last
  | comment kind held => exact h.push_comment kind held
  | firstRow kind held =>
    obtain ⟨data, noRow, -⟩ := h.data_of_no_argument held
    refine h.push_table (.inl kind) (tableOf_snoc_first kind (by simp) noRow) ?_ (by simp [kind])
    simp [data]
  | row kind held =>
    obtain ⟨shorter, rows, -⟩ := table _ held
    exact h.push_table (.inl kind) (tableOf_snoc_row kind shorter) rows (by simp [kind])

/-- A DocString is one more piece of the stretch of a step without an argument. -/
theorem Reads.push_quote (h : t.Reads s) (empty : s.argument = none) {q : Piece} {f : Fence}
    {doc : DocString} (kind : q.kind = .fence f) (reads : q.docString? = some doc) :
    (t.push q).Reads { s with argument := some (.docString doc) } := by
  obtain ⟨data, noRow, -⟩ := h.data_of_no_argument empty
  have isData : q.isData = true := by
    simp [Piece.isData, kind, Kind.category]
  refine h.push (by simp [Piece.follows, isData]) ?_ (.docString ?_ kind ?_)
  · rw [← h.step]
    apply step_push (commentsAfter_snoc (by simp [kind]))
    have noTable : tableOf (.step t.keyword) (t.push q).after = none := by
      apply tableOf_eq_none
      simp only [Stretch.push, List.mem_append, List.mem_singleton]
      rintro p (hp | rfl)
      · exact noRow p hp
      · simp [kind]
    have before : t.after.findSome? Piece.docString? = none := by
      rw [List.findSome?_eq_none_iff]
      intro p hp
      exact docString?_of_not_isData (not_isData_of_dataOf_eq_nil data hp)
    rw [argument_of_no_table noTable]
    rw [Stretch.push, List.findSome?_append, before]
    simp only [List.findSome?_singleton, reads, Option.none_or, Option.map_some]
  · simp [Stretch.push, data, dataOf_of_isData isData]
  · exact (lastKind_snoc (by simp [kind])).trans kind

end Stretch

/-- The DocString of which the opening fence and lines below it have been read. -/
def DocDraft.ofLines (opening : Fence) (first : Line) (content : List Line) : DocDraft :=
  { DocDraft.start opening first with
    lines := content.map fun l => .ofList (Text.dropMargin first.margin l.raw.toList) }

theorem DocDraft.add_ofLines (opening : Fence) (first l : Line) (content : List Line) :
    (ofLines opening first content).add l = ofLines opening first (content ++ [l]) := by
  simp [ofLines, add, start]

/-- What a DocString becomes by its closing fence. -/
theorem DocDraft.close_ofLines (opening closing : Fence) (first last : Line)
    (content : List Line) : (Piece.quote opening first content closing last).docString? =
      some ((ofLines opening first content).close closing) := rfl

/-- A step that may still take lines is what was read of it: its stretch, and the lines of a
DocString that is open. -/
inductive StepDraft.Reads (t : Stretch) : StepDraft → List Line → Prop where
  | plain {s : Step} (reads : t.Reads s) : Reads t (.plain s) []
  | quoting {s : Step} {f : Fence} {first : Line} {content : List Line} (reads : t.Reads s)
      (empty : s.argument = none) (opening : first.kind = .fence f)
      (content_kind : ∀ l ∈ content, ∀ f, l.kind ≠ .fence f) :
      Reads t (.quoting s (.ofLines f first content)) (first :: content)

end Gherkin
