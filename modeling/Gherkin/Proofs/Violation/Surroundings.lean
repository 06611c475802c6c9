import Gherkin.Proofs.Ownership.Documents
import Mathlib.Data.List.DropRight

/-!
# What stands before a line

The headers and step lines before a line are told by the lines alone: a fence opens a DocString,
the next one closes it, and `Line.outside` are the lines that are neither fences nor in between.
`Cut` says of lines that have been read that these are the lines of their sections.
-/

namespace Gherkin

namespace Line

/-- The fence of the DocString that is open after the line, if that of `open?` was before it. -/
def fenceAfter (open? : Option Line) (l : Line) : Option Line :=
  match l.kind, open? with
  | .fence _, none => some l
  | .fence _, some _ => none
  | _, open? => open?

/-- The fence of the DocString that is open after the lines. -/
def openFence? (ls : List Line) : Option Line :=
  ls.foldl fenceAfter none

/-- The lines outside of DocStrings, if the DocString of `open?` is open before the first. -/
def outsideFrom (open? : Option Line) : List Line → List Line
  | [] => []
  | l :: ls =>
    match l.kind, open? with
    | .fence _, _ | _, some _ => outsideFrom (fenceAfter open? l) ls
    | _, none => l :: outsideFrom none ls

/-- The lines outside of DocStrings. -/
def outside (ls : List Line) : List Line :=
  outsideFrom none ls

/-- The line opens a container. -/
def isHeader (l : Line) : Bool :=
  l.kind.category = .container

def isStep (l : Line) : Bool :=
  l.kind.category = .step

/-- The header lines outside of DocStrings. -/
def headers (ls : List Line) : List Line :=
  (outside ls).filter isHeader

/-- The step lines outside of DocStrings. -/
def stepLines (ls : List Line) : List Line :=
  (outside ls).filter isStep

/-- The lines outside of DocStrings that stand below the last header. -/
def sinceHeader (ls : List Line) : List Line :=
  (outside ls).rtakeWhile fun l => !l.isHeader

variable {o : Option Line} {l : Line} {ls ms xs ys : List Line}

theorem fenceAfter_of_not_fence (h : ∀ f, l.kind ≠ .fence f) : fenceAfter o l = o := by
  cases hk : l.kind <;> simp_all [fenceAfter]

theorem fenceAfter_opening {f : Fence} (h : l.kind = .fence f) : fenceAfter none l = some l := by
  simp [fenceAfter, h]

theorem fenceAfter_closing {f : Fence} (h : l.kind = .fence f) {m : Line} :
    fenceAfter (some m) l = none := by
  simp [fenceAfter, h]

theorem not_fence_of_comments (h : ∀ l ∈ ls, l.kind = .comment) :
    ∀ l ∈ ls, ∀ f, l.kind ≠ .fence f := by
  intro l hl f hf
  simp [h l hl] at hf

/-- Lines without a fence open and close nothing. -/
theorem foldl_fenceAfter (h : ∀ l ∈ ls, ∀ f, l.kind ≠ .fence f) : ls.foldl fenceAfter o = o := by
  induction ls with
  | nil => rfl
  | cons l ls ih =>
    rw [List.foldl_cons, fenceAfter_of_not_fence (h l List.mem_cons_self)]
    exact ih fun m hm => h m (List.mem_cons_of_mem l hm)

theorem outsideFrom_cons_fence {f : Fence} (h : l.kind = .fence f) :
    outsideFrom o (l :: ls) = outsideFrom (fenceAfter o l) ls := by
  simp [outsideFrom, h]

theorem outsideFrom_cons_some {f : Line} :
    outsideFrom (some f) (l :: ls) = outsideFrom (fenceAfter (some f) l) ls := by
  cases hk : l.kind <;> simp [outsideFrom, hk]

theorem outsideFrom_cons_none (h : ∀ f, l.kind ≠ .fence f) :
    outsideFrom none (l :: ls) = l :: outsideFrom none ls := by
  cases hk : l.kind <;> simp_all [outsideFrom]

theorem outsideFrom_append :
    outsideFrom o (ls ++ ms) = outsideFrom o ls ++ outsideFrom (ls.foldl fenceAfter o) ms := by
  induction ls generalizing o with
  | nil => rfl
  | cons l ls ih =>
    rw [List.cons_append, List.foldl_cons]
    by_cases fence : ∃ f, l.kind = .fence f
    · obtain ⟨f, hf⟩ := fence
      rw [outsideFrom_cons_fence hf, outsideFrom_cons_fence hf, ih]
    · cases o with
      | some f => rw [outsideFrom_cons_some, outsideFrom_cons_some, ih]
      | none =>
        have plain : ∀ f, l.kind ≠ .fence f := fun f hf => fence ⟨f, hf⟩
        rw [outsideFrom_cons_none plain, outsideFrom_cons_none plain,
          fenceAfter_of_not_fence plain, ih, List.cons_append]

/-- Lines below an open fence are all inside. -/
theorem outsideFrom_some (h : ∀ l ∈ ls, ∀ f, l.kind ≠ .fence f) {f : Line} :
    outsideFrom (some f) ls = [] := by
  induction ls with
  | nil => rfl
  | cons l ls ih =>
    rw [outsideFrom_cons_some, fenceAfter_of_not_fence (h l List.mem_cons_self)]
    exact ih fun m hm => h m (List.mem_cons_of_mem l hm)

/-- No DocString is open after the lines, and `xs` are those outside of DocStrings. -/
structure Closed (ls xs : List Line) : Prop where
  fence : openFence? ls = none
  outside : outside ls = xs

theorem closed_of_not_fence (h : ∀ l ∈ ls, ∀ f, l.kind ≠ .fence f) : Closed ls ls where
  fence := foldl_fenceAfter h
  outside := by
    induction ls with
    | nil => rfl
    | cons l ls ih =>
      rw [Line.outside, outsideFrom_cons_none (h l List.mem_cons_self)]
      congr 1
      exact ih fun m hm => h m (List.mem_cons_of_mem l hm)

/-- The lines after closed ones are read as if they came first. -/
theorem Closed.outside_append (h : Closed ls xs) :
    Line.outside (ls ++ ms) = xs ++ Line.outside ms := by
  have fence : ls.foldl fenceAfter none = none := h.fence
  rw [Line.outside, outsideFrom_append, fence]
  exact congrArg (· ++ Line.outside ms) h.outside

theorem Closed.openFence?_append (h : Closed ls xs) : openFence? (ls ++ ms) = openFence? ms := by
  have fence : ls.foldl fenceAfter none = none := h.fence
  rw [openFence?, List.foldl_append, fence]
  rfl

theorem Closed.append (h : Closed ls xs) (more : Closed ms ys) : Closed (ls ++ ms) (xs ++ ys) where
  fence := h.openFence?_append.trans more.fence
  outside := by rw [h.outside_append, more.outside]

theorem closed_flatMap {f g : α → List Line} {as : List α} (h : ∀ a ∈ as, Closed (f a) (g a)) :
    Closed (as.flatMap f) (as.flatMap g) := by
  induction as with
  | nil => exact ⟨rfl, rfl⟩
  | cons a as ih =>
    exact (h a List.mem_cons_self).append (ih fun b hb => h b (List.mem_cons_of_mem a hb))

end Line

open Line

/-- The line of a piece, if it is no DocString. -/
def Piece.plain : Piece → List Line
  | .line l => [l]
  | .quote .. => []

theorem Piece.Proper.closed {p : Piece} (h : p.Proper) : Closed p.lines p.plain := by
  cases p with
  | line l => exact closed_of_not_fence (by simpa [Piece.Proper] using h)
  | quote opening first content closing last =>
    obtain ⟨opens, closes, inside⟩ := h
    constructor
    · rw [Piece.lines, openFence?, List.cons_append, List.foldl_cons, fenceAfter_opening opens,
        List.foldl_append, foldl_fenceAfter inside, List.foldl_cons, fenceAfter_closing closes,
        List.foldl_nil]
    · rw [Piece.lines, Line.outside, List.cons_append, outsideFrom_cons_fence opens,
        fenceAfter_opening opens, outsideFrom_append, outsideFrom_some inside,
        foldl_fenceAfter inside, outsideFrom_cons_fence closes, fenceAfter_closing closes]
      rfl

/-- The lines of a section outside of DocStrings. -/
def Section.plain (s : Section) : List Line :=
  s.header :: s.body.flatMap Piece.plain

theorem Section.Proper.header_not_fence {s : Section} (h : s.Proper) :
    ∀ l ∈ [s.header], ∀ f, l.kind ≠ .fence f := by
  intro l hl f hf
  have container := h.1
  rw [← List.mem_singleton.1 hl, hf] at container
  cases container

theorem Section.Proper.closed {s : Section} (h : s.Proper) : Closed s.lines s.plain :=
  (closed_of_not_fence h.header_not_fence).append
    (closed_flatMap fun p hp => (h.2 p hp).1.closed)

theorem Piece.category_of_mem_plain {p : Piece} {l : Line} (h : l ∈ p.plain) :
    p.kind.category = l.kind.category := by
  cases p with
  | line m =>
    rw [List.mem_singleton.1 h]
    rfl
  | quote => cases h

/-- No line below the header of a section is a header. -/
theorem Section.Proper.not_header {s : Section} (h : s.Proper) {l : Line}
    (mem : l ∈ s.body.flatMap Piece.plain) : l.isHeader = false := by
  obtain ⟨p, hp, hl⟩ := List.mem_flatMap.1 mem
  simpa [isHeader, ← Piece.category_of_mem_plain hl] using (h.2 p hp).2

/-- A section whose pieces have no stretch has no step line. -/
theorem not_isStep_of_stretches {ps : List Piece} (h : stretches ps = []) {l : Line}
    (mem : l ∈ ps.flatMap Piece.plain) : l.isStep = false := by
  induction ps with
  | nil => cases mem
  | cons p ps ih =>
    cases p with
    | quote => exact ih h mem
    | line m =>
      rcases List.mem_cons.1 mem with rfl | mem
      · cases hk : l.kind <;> simp_all [stretches, isStep, Kind.category]
      · refine ih ?_ mem
        cases hk : m.kind <;> simp_all [stretches]

/-- The lines of a DocString that is open, or none. -/
inductive OpenQuote : List Line → Prop where
  | nothing : OpenQuote []
  | below {first : Line} {content : List Line} {f : Fence} (opening : first.kind = .fence f)
      (inside : ∀ l ∈ content, ∀ f, l.kind ≠ .fence f) : OpenQuote (first :: content)

namespace OpenQuote

variable {quoted : List Line}

theorem outside_eq (h : OpenQuote quoted) : outside quoted = [] := by
  cases h with
  | nothing => rfl
  | below opening inside =>
    rw [outside, outsideFrom_cons_fence opening, fenceAfter_opening opening,
      outsideFrom_some inside]

theorem openFence?_eq (h : OpenQuote quoted) : openFence? quoted = quoted.head? := by
  cases h with
  | nothing => rfl
  | below opening inside =>
    rw [openFence?, List.foldl_cons, fenceAfter_opening opening, foldl_fenceAfter inside,
      List.head?_cons]

end OpenQuote

/-- Lines are cut into comments, the sections after them, and the DocString that is open. -/
structure Cut (ls lead : List Line) (ss : List Section) (quoted : List Line) : Prop where
  lines : ls = lead ++ Section.written ss quoted
  comments : ∀ l ∈ lead, l.kind = .comment
  proper : ∀ s ∈ ss, s.Proper
  quoted : OpenQuote quoted

namespace Cut

variable {ls lead quoted : List Line} {ss done : List Section} {s : Section}

theorem closed (h : Cut ls lead ss quoted) :
    Closed (lead ++ ss.flatMap Section.lines) (lead ++ ss.flatMap Section.plain) :=
  (closed_of_not_fence (not_fence_of_comments h.comments)).append
    (closed_flatMap fun s hs => (h.proper s hs).closed)

theorem outside_eq (h : Cut ls lead ss quoted) :
    outside ls = lead ++ ss.flatMap Section.plain := by
  rw [h.lines, Section.written, ← List.append_assoc, h.closed.outside_append, h.quoted.outside_eq,
    List.append_nil]

theorem openFence?_eq (h : Cut ls lead ss quoted) : openFence? ls = quoted.head? := by
  rw [h.lines, Section.written, ← List.append_assoc, h.closed.openFence?_append,
    h.quoted.openFence?_eq]

theorem headers_section (h : s.Proper) : s.plain.filter isHeader = [s.header] := by
  have below : (s.body.flatMap Piece.plain).filter isHeader = [] := by
    rw [List.filter_eq_nil_iff]
    intro l hl
    simp [h.not_header hl]
  have top : s.header.isHeader = true := by simp [isHeader, h.1]
  rw [Section.plain, List.filter_cons_of_pos top, below]

/-- The headers are those of the sections. -/
theorem headers_eq (h : Cut ls lead ss quoted) : headers ls = ss.map Section.header := by
  have none : lead.filter isHeader = [] := by
    rw [List.filter_eq_nil_iff]
    intro l hl
    simp [isHeader, h.comments l hl, Kind.category]
  rw [headers, h.outside_eq, List.filter_append, none, List.nil_append, List.filter_flatMap,
    List.map_eq_flatMap]
  exact List.flatMap_congr fun s hs => headers_section (h.proper s hs)

/-- The last header is that of the last section. -/
theorem last_header (h : Cut ls lead (done ++ [s]) quoted) :
    (headers ls).getLast? = some s.header := by
  simp [h.headers_eq]

/-- The lines below the last header are those of the last section. -/
theorem sinceHeader_eq (h : Cut ls lead (done ++ [s]) quoted) :
    sinceHeader ls = s.body.flatMap Piece.plain := by
  have proper : s.Proper := h.proper s (by simp)
  have below : ∀ l ∈ (s.body.flatMap Piece.plain).reverse, (!l.isHeader) = true := by
    intro l hl
    simp [proper.not_header (List.mem_reverse.1 hl)]
  have top : s.header.isHeader = true := by simp [isHeader, proper.1]
  have cut : lead ++ (done ++ [s]).flatMap Section.plain =
      (lead ++ done.flatMap Section.plain) ++ s.header :: s.body.flatMap Piece.plain := by
    simp [Section.plain]
  rw [sinceHeader, h.outside_eq, cut, List.rtakeWhile, List.reverse_append, List.reverse_cons,
    List.append_assoc, List.takeWhile_append_of_pos below]
  simp [top]

/-- The last step line is that of the last step of the last section. -/
theorem last_stepLine (h : Cut ls lead (done ++ [s]) quoted) {xs : List Piece} {t : Stretch}
    {st : Step} (ends : s.EndsWith xs t) (reads : t.Reads st) :
    (stepLines ls).getLast? = some t.line := by
  have after : (t.after.flatMap Piece.plain).filter isStep = [] := by
    rw [List.filter_eq_nil_iff]
    intro l hl step
    obtain ⟨p, hp, hlp⟩ := List.mem_flatMap.1 hl
    have follows := reads.follows p hp
    rw [Piece.follows, Piece.isData, Piece.category_of_mem_plain hlp] at follows
    simp_all [isStep]
  have step : t.line.isStep = true := by simp [isStep, reads.line, Kind.category]
  have cut : lead ++ (done ++ [s]).flatMap Section.plain =
      (lead ++ done.flatMap Section.plain ++ s.header :: xs.flatMap Piece.plain) ++
        t.line :: t.after.flatMap Piece.plain := by
    have body : s.body = xs ++ .line t.line :: t.after := ends
    simp [Section.plain, Piece.plain, body]
  rw [stepLines, h.outside_eq, cut, List.filter_append, List.filter_cons_of_pos step, after]
  exact List.getLast?_concat

end Cut

end Gherkin
