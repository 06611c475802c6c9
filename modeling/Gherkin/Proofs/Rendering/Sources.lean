import Gherkin.Proofs.Rendering.Elements
import Gherkin.Proofs.RoundTrip.Carried
import Mathlib.Data.List.Perm.Basic

/-!
# What elements are built from

On its own an element is built from few lines: a container from its header line, a table from its
rows, a DocString from its fences and the lines between them (`Element.BuiltFrom`). The lines of a
section are divided up among the elements of its container (`Section.covers`): a comment goes to
the container, to a step or to a table by the kind of what stands before it, and all else by what
it is.
-/

namespace Gherkin

namespace Element

/-- The kind of the header line of a container. -/
def headerKind? : Element → Option Kind
  | .feature _ => some .feature
  | .background _ => some .background
  | .rule _ => some .rule
  | .scenario s => some (.scenario s.keyword)
  | .outline o => some (.outline o.keyword)
  | .examples e => some (.examples e.keyword)
  | _ => none

/-- The lines that the element is built from, those of the elements below it aside. A DocString is
built from lines that stand together in `whole`. -/
inductive BuiltFrom (whole : List Line) : Element → List Line → Prop where
  | container {e : Element} {h : Header} {l : Line} (header : e.header? = some h)
      (kind : e.headerKind? = some l.kind) (number : h.line = l.number)
      (title : h.title = l.payload) : BuiltFrom whole e [l]
  | step {s : Step} {l : Line} (kind : l.kind = .step s.keyword) (number : s.line = l.number)
      (text : s.text = l.payload) : BuiltFrom whole (.step s) [l]
  | table {t : Table} {ls : List Line}
      (rows : List.Forall₂ (fun r l => l.kind = .row ∧ r = l.row) t.rows ls) :
      BuiltFrom whole (.table t) ls
  | docString {d : DocString} {p : Piece} (proper : p.Proper) (inside : p.lines <:+: whole)
      (reads : p.docString? = some d) : BuiltFrom whole (.docString d) p.lines
  | comment {l : Line} (kind : l.kind = .comment) : BuiltFrom whole (.comment l.comment) [l]
  | description {l : Line} (kind : l.kind = .description) :
      BuiltFrom whole (.description l.description) [l]

/-- An element writes as many lines on its own as it is built from. -/
theorem BuiltFrom.length_eq {whole ls : List Line} {e : Element} (h : BuiltFrom whole e ls) :
    ls.length = e.ownTexts.length := by
  cases h with
  | @container _ _ l header => cases e <;> first | rfl | cases header
  | step => rfl
  | table rows => rw [ownTexts, List.length_map, rows.length_eq]
  | @docString d p proper inside reads =>
    cases p with
    | line => cases reads
    | quote opening first content closing last =>
      cases reads
      simp [ownTexts, Piece.lines]
  | comment => rfl
  | description => rfl

end Element

open Element

/-- The lines are divided up among the elements: each is built from its share, and no line is left
over. -/
def Covers (whole : List Line) (es : List Element) (ls : List Line) : Prop :=
  ∃ shares, List.Forall₂ (BuiltFrom whole) es shares ∧ shares.flatten.Perm ls

namespace Covers

variable {whole ls ms : List Line} {es fs : List Element} {e : Element}

theorem nil : Covers whole [] [] :=
  ⟨[], .nil, .refl []⟩

theorem append (h : Covers whole es ls) (h' : Covers whole fs ms) :
    Covers whole (es ++ fs) (ls ++ ms) := by
  obtain ⟨shares, built, perm⟩ := h
  obtain ⟨shares', built', perm'⟩ := h'
  refine ⟨shares ++ shares', List.rel_append built built', ?_⟩
  rw [List.flatten_append]
  exact perm.append perm'

theorem perm_lines (h : Covers whole es ls) (perm : ls.Perm ms) : Covers whole es ms := by
  obtain ⟨shares, built, perm'⟩ := h
  exact ⟨shares, built, perm'.trans perm⟩

theorem perm_elements (h : Covers whole es ls) (perm : fs.Perm es) : Covers whole fs ls := by
  obtain ⟨shares, built, perm'⟩ := h
  obtain ⟨shares', built', same⟩ := List.perm_comp_forall₂ perm built
  exact ⟨shares', built', same.flatten.trans perm'⟩

theorem cons (first : BuiltFrom whole e ls) (h : Covers whole es ms) :
    Covers whole (e :: es) (ls ++ ms) := by
  obtain ⟨shares, built, perm⟩ := h
  exact ⟨ls :: shares, .cons first built, perm.append_left ls⟩

theorem flatMap {elements : α → List Element} {lines : α → List Line} {as : List α}
    (h : ∀ a ∈ as, Covers whole (elements a) (lines a)) :
    Covers whole (as.flatMap elements) (as.flatMap lines) := by
  induction as with
  | nil => exact nil
  | cons a as ih =>
    rw [List.forall_mem_cons] at h
    exact h.1.append (ih h.2)

theorem map {element : α → Element} {line : α → Line} {as : List α}
    (h : ∀ a ∈ as, BuiltFrom whole (element a) [line a]) :
    Covers whole (as.map element) (as.map line) := by
  rw [List.map_eq_flatMap, List.map_eq_flatMap]
  exact flatMap fun a ha => cons (h a ha) nil

end Covers

/-! ## Comments -/

/-- The lines of the comments that `commentsAfter` picks. -/
def commentLinesAfter (owner : Kind → Bool) (before : Kind) : List Piece → List Line
  | [] => []
  | p :: ps =>
    if p.kind = .comment then
      (if owner before then p.lines else []) ++ commentLinesAfter owner before ps
    else commentLinesAfter owner p.kind ps

section Comments

variable {whole : List Line} {owner other : Kind → Bool} {before : Kind} {p : Piece}
  {ps : List Piece}

theorem commentsAfter_eq_map :
    commentsAfter owner before ps = (commentLinesAfter owner before ps).map Line.comment := by
  induction ps generalizing before with
  | nil => rfl
  | cons p ps ih =>
    rw [commentLinesAfter]
    by_cases h : p.kind = .comment
    · obtain ⟨l, rfl, hl⟩ := Piece.exists_line_of_comment h
      rw [if_pos h, commentsAfter_cons_comment hl, List.map_append, ih]
      cases owner before <;> rfl
    · rw [if_neg h, commentsAfter_cons h, ih]

theorem kind_of_mem_commentLinesAfter {l : Line} (mem : l ∈ commentLinesAfter owner before ps) :
    l.kind = .comment := by
  induction ps generalizing before with
  | nil => cases mem
  | cons p ps ih =>
    rw [commentLinesAfter] at mem
    split at mem
    · next h =>
      obtain ⟨m, rfl, hm⟩ := Piece.exists_line_of_comment h
      rcases List.mem_append.1 mem with mem | mem
      · split at mem
        · rw [List.mem_singleton.1 mem]
          exact hm
        · cases mem
      · exact ih mem
    · exact ih mem

/-- Each comment is built from its line. -/
theorem covers_comment_lines {ls : List Line} (kind : ∀ l ∈ ls, l.kind = .comment) :
    Covers whole ((ls.map Line.comment).map .comment) ls := by
  have built : Covers whole (ls.map (Element.comment ∘ Line.comment)) (ls.map id) :=
    Covers.map fun l hl => .comment (kind l hl)
  rwa [← List.map_map, List.map_id] at built

theorem covers_comments : Covers whole ((commentsAfter owner before ps).map .comment)
    (commentLinesAfter owner before ps) := by
  rw [commentsAfter_eq_map]
  exact covers_comment_lines fun l => kind_of_mem_commentLinesAfter

/-- Comments are divided up between two owners, if what stands before them tells one of the two. -/
theorem comments_perm (first : other before = !owner before)
    (others : ∀ p ∈ ps, p.kind ≠ .comment → other p.kind = !owner p.kind) :
    ((ps.filter (·.kind = .comment)).flatMap Piece.lines).Perm
      (commentLinesAfter owner before ps ++ commentLinesAfter other before ps) := by
  induction ps generalizing before with
  | nil => exact .refl []
  | cons p ps ih =>
    rw [List.forall_mem_cons] at others
    rw [commentLinesAfter, commentLinesAfter]
    by_cases h : p.kind = .comment
    · have rest := (ih first others.2).append_left p.lines
      rw [List.filter_cons_of_pos (by simpa using h), List.flatMap_cons, if_pos h, if_pos h, first]
      cases owner before with
      | true => simpa using rest
      | false =>
        refine rest.trans ?_
        simp only [Bool.false_eq_true, if_false, List.nil_append, Bool.not_false, if_true]
        rw [← List.append_assoc, ← List.append_assoc]
        exact List.perm_append_comm.append_right _
    · rw [List.filter_cons_of_neg (by simpa using h), if_neg h, if_neg h]
      exact ih (others.1 h) others.2

/-- The lines of the comments, and the lines of all else. -/
theorem lines_perm (ps : List Piece) : (ps.flatMap Piece.lines).Perm
    ((ps.filter (·.kind = .comment)).flatMap Piece.lines ++
      (ps.filter (!·.kind = .comment)).flatMap Piece.lines) := by
  rw [← List.flatMap_append]
  exact (List.filter_append_perm _ ps).symm.flatMap_right _

end Comments

/-! ## Tables -/

section Tables

variable {whole : List Line} {before : Kind} {ps : List Piece} {t : Table}

theorem rows_built (ps : List Piece) :
    List.Forall₂ (fun (r : Row) (l : Line) => l.kind = .row ∧ r = l.row) (ps.filterMap Piece.row?)
      ((ps.filter (·.kind = .row)).flatMap Piece.lines) := by
  induction ps with
  | nil => exact .nil
  | cons p ps ih =>
    by_cases h : p.kind = .row
    · cases p with
      | quote => cases h
      | line l =>
        have cut : (Piece.line l :: ps).filter (·.kind = .row) =
            Piece.line l :: ps.filter (·.kind = .row) := List.filter_cons_of_pos (decide_eq_true h)
        rw [List.filterMap_cons_some (Piece.row?_line h), cut]
        exact .cons ⟨h, rfl⟩ ih
    · rwa [List.filterMap_cons_none (Piece.row?_eq_none h),
        List.filter_cons_of_neg (by simpa using h)]

/-- Without a row no comment stands after one. -/
theorem commentLinesAfter_eq_nil (header : before ≠ .row) (noRow : ∀ p ∈ ps, p.kind ≠ .row) :
    commentLinesAfter Kind.ownsForTable before ps = [] := by
  have none : commentsAfter Kind.ownsForTable before ps = [] := by
    refine commentsAfter_eq_nil (by simpa [Kind.ownsForTable] using header) fun p hp _ => ?_
    simpa [Kind.ownsForTable] using noRow p hp
  rw [commentsAfter_eq_map] at none
  exact List.map_eq_nil_iff.1 none

/-- A table is built from the rows, and its comments are those after them; without a row there is
neither. -/
theorem covers_table (header : before ≠ .row) :
    Covers whole ((tableOf before ps).toList.flatMap Table.elements)
      ((ps.filter (·.kind = .row)).flatMap Piece.lines ++
        commentLinesAfter Kind.ownsForTable before ps) := by
  have rows := rows_built ps
  cases found : tableOf before ps with
  | some t =>
    have comments : t.comments = commentsAfter Kind.ownsForTable before ps := by
      simp only [tableOf] at found
      split at found
      · cases found
      · cases found
        rfl
    rw [rows_of_tableOf found] at rows
    rw [Option.toList_some, List.flatMap_singleton, Table.elements, comments]
    exact .cons (.table rows) covers_comments
  | none =>
    have noRow : ∀ p ∈ ps, p.kind ≠ .row := by
      intro p hp kind
      simp only [tableOf] at found
      split at found
      · next empty =>
        cases p with
        | quote => cases kind
        | line l =>
          have row : (Piece.line l).row? = some l.row := Piece.row?_line kind
          rw [List.filterMap_eq_nil_iff.1 empty _ hp] at row
          cases row
      · cases found
    have noLine : ps.filter (·.kind = .row) = [] := by simpa using noRow
    rw [noLine, commentLinesAfter_eq_nil header noRow]
    exact .nil

end Tables

/-! ## Steps -/

section

variable {p : Piece}

theorem dataOf_cons (h : p.isData = true) (ps : List Piece) : dataOf (p :: ps) = p :: dataOf ps :=
  List.filter_cons_of_pos h

theorem dataOf_cons_of_not_isData (h : p.isData = false) (ps : List Piece) :
    dataOf (p :: ps) = dataOf ps :=
  List.filter_cons_of_neg (by simp [h])

end

/-- A DocString is data. -/
theorem findSome?_docString? (ps : List Piece) :
    ps.findSome? Piece.docString? = (dataOf ps).findSome? Piece.docString? := by
  induction ps with
  | nil => rfl
  | cons p ps ih =>
    cases h : p.isData with
    | true => rw [dataOf_cons h, List.findSome?_cons, List.findSome?_cons, ih]
    | false =>
      rw [dataOf_cons_of_not_isData h, List.findSome?_cons, Stretch.docString?_of_not_isData h]
      exact ih

namespace Stretch

variable {whole : List Line} {t : Stretch}

/-- The lines of the stretch. -/
def lines (t : Stretch) : List Line :=
  t.line :: t.after.flatMap Piece.lines

/-- Rows after a step are its table. -/
theorem covers_argument_rows (rows : ∀ p ∈ dataOf t.after, p.kind = .row) :
    Covers whole (t.argument.toList.flatMap Argument.elements)
      ((dataOf t.after).flatMap Piece.lines ++
        commentLinesAfter Kind.ownsForTable (.step t.keyword) t.after) := by
  have data : dataOf t.after = t.after.filter (·.kind = .row) := by
    refine List.filter_congr fun p hp => ?_
    by_cases h : p.isData = true
    · simp [h, rows p (List.mem_filter.2 ⟨hp, h⟩)]
    · have other : p.kind ≠ .row := by
        intro kind
        exact h (by simp [Piece.isData, kind, Kind.category])
      simp [h, other]
  have noQuote : t.after.findSome? Piece.docString? = none := by
    rw [findSome?_docString?, List.findSome?_eq_none_iff]
    intro p hp
    have kind := rows p hp
    cases p with
    | line => rfl
    | quote => cases kind
  have table : t.argument.toList.flatMap Argument.elements =
      (tableOf (.step t.keyword) t.after).toList.flatMap Table.elements := by
    cases found : tableOf (.step t.keyword) t.after with
    | some tb =>
      rw [argument_of_tableOf found]
      rfl
    | none =>
      rw [argument_of_no_table found, noQuote]
      rfl
  rw [table, data]
  exact covers_table (by simp)

/-- The argument of a step is built from the data after it. -/
theorem covers_argument (proper : ∀ p ∈ t.after, p.Proper)
    (inside : ∀ p ∈ t.after, p.lines <:+: whole) (single : t.SingleArgument) :
    Covers whole (t.argument.toList.flatMap Argument.elements)
      ((dataOf t.after).flatMap Piece.lines ++
        commentLinesAfter Kind.ownsForTable (.step t.keyword) t.after) := by
  by_cases rows : ∀ p ∈ dataOf t.after, p.kind = .row
  · exact covers_argument_rows rows
  · obtain ⟨p, data⟩ := single.resolve_left rows
    have other : p.kind ≠ .row := by simpa [data] using rows
    obtain ⟨mem, isData⟩ := List.mem_filter.1 (show p ∈ dataOf t.after by simp [data])
    have noRow : ∀ q ∈ t.after, q.kind ≠ .row := fun q hq =>
      kind_ne_row_of_dataOf (by simp [data, other]) hq
    cases p with
    | line l =>
      have noFence := proper _ mem
      cases hk : l.kind <;> simp_all [Piece.isData, Kind.category, Piece.Proper]
    | quote opening first content closing last =>
      have argument : t.argument = some (.docString
          ((DocDraft.ofLines opening first content).close closing)) := by
        rw [argument_of_no_table (tableOf_eq_none noRow), findSome?_docString?, data]
        rfl
      rw [argument, data, commentLinesAfter_eq_nil (by simp) noRow, List.flatMap_singleton]
      exact .cons (.docString (proper _ mem) (inside _ mem) rfl) .nil

/-- The lines of a stretch are divided up among the elements of its step. -/
theorem covers (line : t.line.kind = .step t.keyword) (follows : ∀ p ∈ t.after, p.follows = true)
    (proper : ∀ p ∈ t.after, p.Proper) (inside : ∀ p ∈ t.after, p.lines <:+: whole)
    (single : t.SingleArgument) : Covers whole t.step.elements t.lines := by
  have data : t.after.filter (!·.kind = .comment) = dataOf t.after := by
    refine List.filter_congr fun p hp => ?_
    have h := follows p hp
    cases hk : p.kind <;> simp_all [Piece.follows, Piece.isData, Kind.category]
  have owners : ((t.after.filter (·.kind = .comment)).flatMap Piece.lines).Perm
      (commentLinesAfter Kind.ownsForStep (.step t.keyword) t.after ++
        commentLinesAfter Kind.ownsForTable (.step t.keyword) t.after) := by
    refine comments_perm rfl fun p hp kind => ?_
    have h := follows p hp
    cases hk : p.kind <;> simp_all [Piece.follows, Piece.isData, Kind.category, Kind.ownsForStep,
      Kind.ownsForTable]
  have comments : Covers whole (t.step.comments.map .comment)
      (commentLinesAfter Kind.ownsForStep (.step t.keyword) t.after) := covers_comments
  have perm := (lines_perm t.after).trans (owners.append_right _)
  rw [data, List.append_assoc] at perm
  refine .cons (.step line rfl rfl)
    ((comments.append (covers_argument proper inside single)).perm_lines ?_)
  exact (List.perm_append_comm.append_left _).trans perm.symm

end Stretch

end Gherkin
