import Gherkin.Proofs.Ownership.Steps

/-!
# Blocks, by what was read of them

`BlockDraft.Reads` says what a block is by its section and by the lines of a DocString that is
open. Each line that the block takes leads to such a section again, one piece longer or not, with
the lines in the same order (`Takes.reads`).
-/

namespace Gherkin

namespace Section

variable {s : Section} {l : Line} {p : Piece} {xs : List Piece} {t : Stretch}

/-- The section with one more piece. -/
def push (s : Section) (p : Piece) : Section :=
  { s with body := s.body ++ [p] }

@[simp] theorem push_header : (s.push p).header = s.header := rfl

@[simp] theorem push_body : (s.push p).body = s.body ++ [p] := rfl

/-- The kind of the last piece of the section that is no comment, its header included. -/
def last (s : Section) : Kind :=
  lastKind s.header.kind s.body

theorem lines_push : (s.push p).lines = s.lines ++ p.lines := by
  simp [lines, push]

theorem Proper.push (h : s.Proper) (proper : p.Proper) (below : p.kind.category ≠ .container) :
    (s.push p).Proper := by
  refine ⟨h.1, ?_⟩
  simp only [push_body, List.mem_append, List.mem_singleton]
  rintro q (hq | rfl)
  · exact h.2 q hq
  · exact ⟨proper, below⟩

theorem ownHeader_push_description (h : l.kind = .description) :
    (s.push (.line l)).ownHeader = s.ownHeader.addDescription l.description := by
  simp [ownHeader, Header.addDescription, Piece.description?_line h,
    commentsAfter_snoc (p := .line l) (by simp [h])]

theorem ownHeader_push_comment (h : l.kind = .comment)
    (owned : s.last.ownsForContainer = true) :
    (s.push (.line l)).ownHeader = s.ownHeader.addComment l.comment := by
  simp [ownHeader, Header.addComment, Piece.description?_eq_none (p := .line l) (by simp [h]),
    commentsAfter_snoc_comment h owned]

/-- A piece that is no description leaves the header as it is, unless it is a comment that belongs
to it. -/
theorem ownHeader_push (h : p.kind ≠ .description)
    (owned : p.kind = .comment → s.last.ownsForContainer = false) :
    (s.push p).ownHeader = s.ownHeader := by
  have comments : commentsAfter Kind.ownsForContainer s.header.kind (s.body ++ [p]) =
      commentsAfter Kind.ownsForContainer s.header.kind s.body := by
    by_cases hp : p.kind = .comment
    · exact commentsAfter_snoc_of_not_owned (owned hp)
    · exact commentsAfter_snoc hp
  simp [ownHeader, Piece.description?_eq_none h, comments]

/-- The last step of the section is the one of the stretch. -/
def EndsWith (s : Section) (xs : List Piece) (t : Stretch) : Prop :=
  s.body = xs ++ .line t.line :: t.after

theorem EndsWith.push (h : s.EndsWith xs t) : (s.push p).EndsWith xs (t.push p) := by
  simp only [EndsWith, Stretch.push, push_body] at h ⊢
  rw [h]
  simp

theorem EndsWith.stretches_eq (h : s.EndsWith xs t) {st : Step} (reads : t.Reads st) :
    stretches s.body = stretches xs ++ [t] := by
  rw [h]
  exact stretches_snoc_stretch t reads.line reads.follows

theorem EndsWith.last_eq (h : s.EndsWith xs t) {st : Step} (reads : t.Reads st) :
    s.last = lastKind (.step t.keyword) t.after := by
  rw [last, h, lastKind_append, lastKind_cons, if_neg (by simp [reads.line])]
  simp [reads.line]

/-- A section that ends with a step has nothing for its container there. -/
theorem EndsWith.not_owned (h : s.EndsWith xs t) {st : Step} (reads : t.Reads st) :
    s.last.ownsForContainer = false := by
  rw [h.last_eq reads]
  exact ownsForContainer_lastKind rfl reads.follows

/-- A description, a step line, or a comment of the container brings no data. -/
theorem DataInSteps.push {ts : List Stretch} (h : s.DataInSteps) (noData : p.isData = false)
    (longer : stretches (s.body ++ [p]) = stretches s.body ++ ts) (fresh : ∀ t ∈ ts, t.after = []) :
    (s.push p).DataInSteps := by
  obtain ⟨all, single⟩ := h
  have none : ts.flatMap (fun t => dataOf t.after) = [] := by
    rw [List.flatMap_eq_nil_iff]
    intro t ht
    rw [fresh t ht]
    rfl
  refine ⟨?_, ?_⟩
  · rw [push_body, longer, dataOf_append, dataOf_of_not_isData noData, List.flatMap_append, none,
      all]
  · rw [push_body, longer]
    intro t ht
    rcases List.mem_append.1 ht with ht | ht
    · exact single t ht
    · simp [Stretch.SingleArgument, fresh t ht, dataOf]

/-- A piece that goes with the last step brings its data to that step. -/
theorem DataInSteps.push_following (h : s.DataInSteps) (ends : s.EndsWith xs t) {st st' : Step}
    (shorter : t.Reads st) (longer : (t.push p).Reads st') : (s.push p).DataInSteps := by
  obtain ⟨all, single⟩ := h
  rw [ends.stretches_eq shorter] at all single
  have pushed : stretches (s.push p).body = stretches xs ++ [t.push p] := by
    exact ends.push.stretches_eq longer
  refine ⟨?_, ?_⟩
  · rw [pushed, push_body, dataOf_append, all]
    simp [Stretch.push]
  · rw [pushed]
    intro u hu
    rcases List.mem_append.1 hu with hu | hu
    · exact single u (List.mem_append_left _ hu)
    · rw [List.mem_singleton.1 hu]
      exact longer.carries.singleArgument

end Section

/-- Where a block is in its section: between its steps, or in its last step. -/
inductive BlockDraft.At (b : BlockDraft) (s : Section) : List Line → Prop where
  | between (state : b.current = none) (steps : b.steps = s.steps)
      (last : s.last.ownsForContainer = true) : b.At s []
  | within {xs : List Piece} {t : Stretch} {d : StepDraft} {quoted : List Line}
      (state : b.current = some d) (ends : s.EndsWith xs t)
      (steps : b.steps = (stretches xs).map Stretch.step) (reads : d.Reads t quoted) :
      b.At s quoted

/-- A block is what was read of it: its section, and the lines of a DocString that is open. -/
structure BlockDraft.Reads (b : BlockDraft) (s : Section) (quoted : List Line) : Prop where
  header : b.header = s.ownHeader
  proper : s.Proper
  data : s.DataInSteps
  holds : ∀ t ∈ stretches s.body, s.header.kind.holds t.keyword = true
  state : b.At s quoted

namespace BlockDraft

variable {b b' : BlockDraft} {s : Section} {quoted : List Line} {l : Line}

theorem reads_start (h : l.kind.category = .container) : (start l).Reads ⟨l, []⟩ [] where
  header := rfl
  proper := ⟨h, by simp⟩
  data := by simp [Section.DataInSteps, stretches, dataOf]
  holds := by simp [stretches]
  state := .between rfl rfl (by simp [Section.last, Kind.ownsForContainer, h])

/-- A block that is in no DocString, once its last step has ended. -/
theorem Reads.settle (h : b.Reads s quoted) (state : ¬ b.Quoting) :
    quoted = [] ∧ b.settle.current = none ∧ b.settle.steps = s.steps := by
  rcases h.state with ⟨none, steps, -⟩ | ⟨current, ends, steps, reads⟩
  · rw [settle_of_none none]
    exact ⟨rfl, none, steps⟩
  · cases reads with
    | plain reads =>
      rw [settle_of_plain current]
      refine ⟨rfl, rfl, ?_⟩
      rw [Section.steps, ends.stretches_eq reads, List.map_append, List.map_singleton, reads.step,
        steps]
    | quoting reads empty opening content_kind => exact absurd ⟨_, _, current⟩ state

/-- The section of a block that takes a line, once the line is in it. -/
structure Grows (s s' : Section) (quoted quoted' : List Line) (l : Line) : Prop where
  header : s'.header = s.header
  lines : s'.lines ++ quoted' = s.lines ++ quoted ++ [l]

theorem grows_push : Grows s (s.push (.line l)) [] [] l where
  header := rfl
  lines := by simp [Section.lines_push]

/-- A piece of a section stays right below its header with a piece that brings no step. -/
theorem Reads.holds_push (h : b.Reads s quoted) {p : Piece}
    (same : stretches (s.body ++ [p]) = stretches s.body) :
    ∀ t ∈ stretches (s.push p).body, (s.push p).header.kind.holds t.keyword = true := by
  rw [Section.push_body, same]
  exact h.holds

theorem Reads.push_description (h : b.Reads s quoted) (kind : l.kind = .description)
    (state : ¬ b.Quoting) :
    Reads { b.settle with header := b.header.addDescription l.description }
      (s.push (.line l)) [] := by
  obtain ⟨-, none, steps⟩ := h.settle state
  have ends : (Piece.line l).follows = false := by
    simp [Piece.follows, Piece.isData, kind, Kind.category]
  have same : stretches (s.body ++ [.line l]) = stretches s.body := by
    exact stretches_snoc ends (by simp [kind])
  refine ⟨?_, ?_, ?_, h.holds_push same, .between none ?_ ?_⟩
  · rw [Section.ownHeader_push_description kind, h.header]
  · exact h.proper.push (by simp [Piece.Proper, kind]) (by simp [kind, Kind.category])
  · refine h.data.push ?_ (same.trans (List.append_nil _).symm) (by simp)
    simp [Piece.isData, kind, Kind.category]
  · show b.settle.steps = _
    rw [steps, Section.steps, Section.steps, Section.push_body, same]
  · rw [Section.last, Section.push_body, lastKind_snoc (by simp [kind])]
    simp [kind, Kind.ownsForContainer]

theorem Reads.push_comment (h : b.Reads s quoted) (kind : l.kind = .comment)
    (state : b.current = none) :
    Reads { b with header := b.header.addComment l.comment } (s.push (.line l)) [] := by
  rcases h.state with ⟨-, steps, last⟩ | ⟨current, -, -, -⟩
  · have same : stretches (s.body ++ [.line l]) = stretches s.body := by
      exact stretches_snoc_comment kind last
    refine ⟨?_, ?_, ?_, h.holds_push same, .between state ?_ ?_⟩
    · rw [Section.ownHeader_push_comment kind last, h.header]
    · exact h.proper.push (by simp [Piece.Proper, kind]) (by simp [kind, Kind.category])
    · refine h.data.push ?_ (same.trans (List.append_nil _).symm) (by simp)
      simp [Piece.isData, kind, Kind.category]
    · show b.steps = _
      rw [steps, Section.steps, Section.steps, Section.push_body, same]
    · rw [Section.last, Section.push_body, lastKind_snoc_comment (p := .line l) kind]
      exact last
  · rw [state] at current
    cases current

theorem Reads.push_step (h : b.Reads s quoted) {k : StepKeyword} (kind : l.kind = .step k)
    (holds : s.header.kind.holds k = true) (state : ¬ b.Quoting) :
    Reads { b.settle with current := some (.start k l) } (s.push (.line l)) [] := by
  obtain ⟨-, none, steps⟩ := h.settle state
  have ends : (Piece.line l).follows = false := by
    simp [Piece.follows, Piece.isData, kind, Kind.category]
  have one : stretches (s.body ++ [.line l]) = stretches s.body ++ [⟨k, l, []⟩] := by
    rw [stretches_append ends]
    simp [stretches, kind]
  refine ⟨?_, ?_, ?_, ?_, .within (t := ⟨k, l, []⟩) rfl rfl ?_ (.plain ⟨kind, ?_, rfl, ?_⟩)⟩
  · rw [Section.ownHeader_push (by simp [kind]) (by simp [kind])]
    show b.settle.header = _
    rw [settle_header, h.header]
  · exact h.proper.push (by simp [Piece.Proper, kind]) (by simp [kind, Kind.category])
  · refine h.data.push ?_ one (by simp)
    simp [Piece.isData, kind, Kind.category]
  · rw [Section.push_body, one]
    intro t ht
    rcases List.mem_append.1 ht with ht | ht
    · exact h.holds t ht
    · rw [List.mem_singleton.1 ht]
      exact holds
  · exact steps
  · simp
  · exact .nothing rfl rfl

/-- A piece that goes with the last step of a block. -/
theorem Reads.push_following (h : b.Reads s quoted) {xs : List Piece} {t : Stretch} {st st' : Step}
    {p : Piece} (ends : s.EndsWith xs t) (steps : b.steps = (stretches xs).map Stretch.step)
    (shorter : t.Reads st) (longer : (t.push p).Reads st') (proper : p.Proper) :
    Reads { b with current := some (.plain st') } (s.push p) [] := by
  have follows : p.follows = true := by
    exact longer.follows p (by simp [Stretch.push])
  have notNote : p.kind ≠ .description ∧ p.kind.category ≠ .container := by
    cases hk : p.kind <;> simp_all [Piece.follows, Piece.isData, Kind.category]
  refine ⟨?_, h.proper.push proper notNote.2, ?_, ?_, .within rfl ends.push steps (.plain longer)⟩
  · rw [Section.ownHeader_push notNote.1 fun _ => ends.not_owned shorter]
    exact h.header
  · exact h.data.push_following ends shorter longer
  · rw [ends.push.stretches_eq longer]
    have holds := h.holds
    rw [ends.stretches_eq shorter] at holds
    intro u hu
    rcases List.mem_append.1 hu with hu | hu
    · exact holds u (List.mem_append_left _ hu)
    · rw [List.mem_singleton.1 hu]
      exact holds t (by simp)

/-- A line that the last step of a block takes is the next one of the section, or it opens a
DocString. -/
theorem Reads.push_taken (h : b.Reads s quoted) {st : Step} {d : StepDraft}
    (state : b.current = some (.plain st)) (takes : st.Takes l d) :
    ∃ s' quoted', Grows s s' quoted quoted' l ∧ Reads { b with current := some d } s' quoted' := by
  rcases h.state with ⟨none, -, -⟩ | ⟨current, ends, steps, reads⟩
  · simp [none] at state
  · rw [current, Option.some.injEq] at state
    subst state
    cases reads with
    | plain reads =>
      cases takes with
      | fence kind held =>
        have inside : ∀ m ∈ ([] : List Line), ∀ f, m.kind ≠ .fence f := by simp
        have opened : StepDraft.Reads _ (.quoting _ (.start _ l)) [l] :=
          .quoting reads held kind inside
        exact ⟨s, [l], ⟨rfl, by simp⟩, h.header, h.proper, h.data, h.holds,
          .within rfl ends steps opened⟩
      | tableComment kind held =>
        exact ⟨_, _, grows_push, h.push_following ends steps reads
          (reads.push_line (.tableComment kind held)) (by simp [Piece.Proper, kind])⟩
      | comment kind held =>
        exact ⟨_, _, grows_push, h.push_following ends steps reads
          (reads.push_line (.comment kind held)) (by simp [Piece.Proper, kind])⟩
      | firstRow kind held =>
        exact ⟨_, _, grows_push, h.push_following ends steps reads
          (reads.push_line (.firstRow kind held)) (by simp [Piece.Proper, kind])⟩
      | row kind held =>
        exact ⟨_, _, grows_push, h.push_following ends steps reads
          (reads.push_line (.row kind held)) (by simp [Piece.Proper, kind])⟩

/-- A line below an open fence is the next one of the DocString, or it closes the DocString, which
is the next piece of the section. -/
theorem Reads.push_quoted (h : b.Reads s quoted) {st : Step} {d : DocDraft}
    (state : b.current = some (.quoting st d)) :
    ∃ s' quoted', Grows s s' quoted quoted' l ∧
      Reads { b with current := some (StepDraft.feedQuoting st d l) } s' quoted' := by
  rcases h.state with ⟨none, -, -⟩ | ⟨current, ends, steps, reads⟩
  · simp [none] at state
  · rw [current, Option.some.injEq] at state
    subst state
    cases reads with
    | @quoting _ f first content reads empty opening content_kind =>
      by_cases closing : ∃ g, l.kind = .fence g
      · obtain ⟨g, hg⟩ := closing
        have longer := reads.push_quote (q := .quote f first content g l) empty rfl
          (DocDraft.close_ofLines f g first l content)
        refine ⟨s.push (.quote f first content g l), [], ⟨rfl, ?_⟩, ?_⟩
        · simp [Section.lines_push, Piece.lines]
        · simp only [StepDraft.feedQuoting, hg]
          exact h.push_following ends steps reads longer ⟨opening, hg, content_kind⟩
      · have inside : StepDraft.feedQuoting st (.ofLines f first content) l =
            .quoting st (.ofLines f first (content ++ [l])) := by
          rw [← DocDraft.add_ofLines]
          cases hk : l.kind <;> simp_all [StepDraft.feedQuoting]
        refine ⟨s, first :: (content ++ [l]), ⟨rfl, by simp⟩, h.header, h.proper, h.data,
          h.holds, .within rfl ends steps ?_⟩
        rw [inside]
        refine .quoting reads empty opening ?_
        intro m hm f' hf'
        rcases List.mem_append.1 hm with hm | hm
        · exact content_kind m hm f' hf'
        · exact closing ⟨f', by rw [← List.mem_singleton.1 hm]; exact hf'⟩

/-- Each line that a block takes is the next one of its section, or of the DocString that is
open. -/
theorem Takes.reads (taken : b.Takes s.header.kind l b') (h : b.Reads s quoted) :
    ∃ s' quoted', Grows s s' quoted quoted' l ∧ b'.Reads s' quoted' := by
  cases taken with
  | description kind state =>
    obtain ⟨rfl, -, -⟩ := h.settle state
    exact ⟨_, _, grows_push, h.push_description kind state⟩
  | comment kind state =>
    obtain ⟨rfl, -, -⟩ := h.settle (by simp [Quoting, state])
    exact ⟨_, _, grows_push, h.push_comment kind state⟩
  | step kind holds state =>
    obtain ⟨rfl, -, -⟩ := h.settle state
    exact ⟨_, _, grows_push, h.push_step kind holds state⟩
  | following state takes => exact h.push_taken state takes
  | quoted state => exact h.push_quoted state

/-- The steps of a block that may end here are those of its section. -/
theorem Reads.close (h : b.Reads s quoted) {steps : List Step} (closed : b.close = .ok steps) :
    quoted = [] ∧ steps = s.steps := by
  have state : ¬ b.Quoting := by
    rintro ⟨st, d, open_⟩
    rw [close_of_quoting open_] at closed
    cases closed
  obtain ⟨rfl, -, same⟩ := h.settle state
  refine ⟨rfl, ?_⟩
  rcases hb : b.current with _ | st | ⟨st, d⟩
  · rw [close_of_none hb] at closed
    cases closed
    rw [← same, settle_of_none hb]
  · rw [close_of_plain hb] at closed
    cases closed
    rw [← same, settle_of_plain hb]
  · exact absurd ⟨st, d, hb⟩ state

end BlockDraft

end Gherkin
