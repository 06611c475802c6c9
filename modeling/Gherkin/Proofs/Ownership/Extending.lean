import Gherkin.Proofs.Ownership.Basic
import Mathlib.Data.List.TakeWhile

/-!
# One piece more

What is said of pieces when one more piece stands behind them. A comment goes by the last piece
before it that is no comment, so `lastKind` is all that one has to know of the pieces before.
-/

namespace Gherkin

variable {l : Line} {p : Piece} {ps qs : List Piece} {owner : Kind → Bool} {before k : Kind}

/-- The kind of the last piece that is no comment; `before` is that of the pieces before them. -/
def lastKind (before : Kind) (ps : List Piece) : Kind :=
  ps.foldl (fun k p => if p.kind = .comment then k else p.kind) before

@[simp] theorem lastKind_nil : lastKind before [] = before := rfl

theorem lastKind_cons :
    lastKind before (p :: ps) = lastKind (if p.kind = .comment then before else p.kind) ps := rfl

theorem lastKind_append : lastKind before (ps ++ qs) = lastKind (lastKind before ps) qs := by
  simp [lastKind]

theorem lastKind_snoc_comment (h : p.kind = .comment) :
    lastKind before (ps ++ [p]) = lastKind before ps := by
  rw [lastKind_append, lastKind_cons, if_pos h, lastKind_nil]

theorem lastKind_snoc (h : p.kind ≠ .comment) : lastKind before (ps ++ [p]) = p.kind := by
  rw [lastKind_append, lastKind_cons, if_neg h, lastKind_nil]

namespace Piece

@[simp] theorem kind_line : (Piece.line l).kind = l.kind := rfl

@[simp] theorem lines_line : (Piece.line l).lines = [l] := rfl

@[simp] theorem description?_line (h : l.kind = .description) :
    (Piece.line l).description? = some l.description := by
  simp [description?, h]

theorem description?_eq_none (h : p.kind ≠ .description) : p.description? = none := by
  cases p <;> simp_all [description?]

theorem comment?_line (h : l.kind = .comment) : (Piece.line l).comment? = some l.comment := by
  simp [comment?, h]

theorem comment?_eq_none (h : p.kind ≠ .comment) : p.comment? = none := by
  cases p <;> simp_all [comment?]

theorem row?_line (h : l.kind = .row) : (Piece.line l).row? = some l.row := by
  simp [row?, h]

theorem row?_eq_none (h : p.kind ≠ .row) : p.row? = none := by
  cases p <;> simp_all [row?]

theorem exists_line_of_comment (h : p.kind = .comment) :
    ∃ l, p = .line l ∧ l.kind = .comment := by
  cases p with
  | line l => exact ⟨l, rfl, h⟩
  | quote => cases h

end Piece

/-! ## Comments -/

theorem commentsAfter_cons_comment (h : l.kind = .comment) :
    commentsAfter owner before (.line l :: ps) =
      (if owner before then [l.comment] else []) ++ commentsAfter owner before ps := by
  rw [commentsAfter, Piece.comment?_line h]
  cases owner before <;> simp

theorem commentsAfter_cons (h : p.kind ≠ .comment) :
    commentsAfter owner before (p :: ps) = commentsAfter owner p.kind ps := by
  rw [commentsAfter, Piece.comment?_eq_none h]

theorem commentsAfter_append :
    commentsAfter owner before (ps ++ qs) =
      commentsAfter owner before ps ++ commentsAfter owner (lastKind before ps) qs := by
  induction ps generalizing before with
  | nil => rfl
  | cons p ps ih =>
    rw [List.cons_append, lastKind_cons]
    by_cases h : p.kind = .comment
    · obtain ⟨l, rfl, hl⟩ := Piece.exists_line_of_comment h
      rw [commentsAfter_cons_comment hl, commentsAfter_cons_comment hl, if_pos h, ih,
        List.append_assoc]
    · rw [commentsAfter_cons h, commentsAfter_cons h, if_neg h, ih]

theorem commentsAfter_snoc_comment (h : l.kind = .comment)
    (owned : owner (lastKind before ps) = true) :
    commentsAfter owner before (ps ++ [.line l]) =
      commentsAfter owner before ps ++ [l.comment] := by
  rw [commentsAfter_append, commentsAfter_cons_comment h, if_pos owned]
  rfl

theorem commentsAfter_snoc_of_not_owned (owned : owner (lastKind before ps) = false) :
    commentsAfter owner before (ps ++ [p]) = commentsAfter owner before ps := by
  by_cases h : p.kind = .comment
  · obtain ⟨l, rfl, hl⟩ := Piece.exists_line_of_comment h
    rw [commentsAfter_append, commentsAfter_cons_comment hl, owned]
    simp [commentsAfter]
  · rw [commentsAfter_append, commentsAfter_cons h]
    simp [commentsAfter]

theorem commentsAfter_snoc (h : p.kind ≠ .comment) :
    commentsAfter owner before (ps ++ [p]) = commentsAfter owner before ps := by
  rw [commentsAfter_append, commentsAfter_cons h]
  simp [commentsAfter]

/-- Without a piece that tells `owner`, it owns no comments. -/
theorem commentsAfter_eq_nil (first : owner before = false)
    (others : ∀ p ∈ ps, p.kind ≠ .comment → owner p.kind = false) :
    commentsAfter owner before ps = [] := by
  induction ps generalizing before with
  | nil => rfl
  | cons p ps ih =>
    have later : ∀ q ∈ ps, q.kind ≠ .comment → owner q.kind = false := by
      intro q hq
      exact others q (List.mem_cons_of_mem p hq)
    by_cases h : p.kind = .comment
    · obtain ⟨l, rfl, hl⟩ := Piece.exists_line_of_comment h
      rw [commentsAfter_cons_comment hl, first, ih first later]
      rfl
    · rw [commentsAfter_cons h]
      exact ih (others p List.mem_cons_self h) later

/-! ## Tables -/

theorem tableOf_eq_none (h : ∀ p ∈ ps, p.kind ≠ .row) : tableOf before ps = none := by
  have rows : ps.filterMap Piece.row? = [] := by
    rw [List.filterMap_eq_nil_iff]
    intro p hp
    exact Piece.row?_eq_none (h p hp)
  simp [tableOf, rows]

/-- The rows of a table are those among the pieces. -/
theorem rows_of_tableOf {t : Table} (h : tableOf before ps = some t) :
    ps.filterMap Piece.row? = t.rows := by
  simp only [tableOf] at h
  split at h
  · cases h
  · next rows =>
    cases h
    exact rows

/-- The first row begins the table. -/
theorem tableOf_snoc_first (h : l.kind = .row) (header : before ≠ .row)
    (none : ∀ p ∈ ps, p.kind ≠ .row) :
    tableOf before (ps ++ [.line l]) = some (.start l) := by
  have rows : ps.filterMap Piece.row? = [] := by
    rw [List.filterMap_eq_nil_iff]
    intro p hp
    exact Piece.row?_eq_none (none p hp)
  have comments : commentsAfter Kind.ownsForTable before ps = [] := by
    apply commentsAfter_eq_nil (by simp [Kind.ownsForTable, header])
    intro p hp _
    simp [Kind.ownsForTable, none p hp]
  simp [tableOf, rows, Piece.row?_line h, commentsAfter_snoc (p := .line l) (by simp [h]), comments,
    Table.start]

theorem tableOf_snoc_row {t : Table} (h : l.kind = .row) (table : tableOf before ps = some t) :
    tableOf before (ps ++ [.line l]) = some (t.addRow l.row) := by
  simp only [tableOf] at table
  cases rows : ps.filterMap Piece.row? with
  | nil => simp [rows] at table
  | cons first others =>
    simp only [rows, Option.some.injEq] at table
    subst table
    simp [tableOf, rows, Piece.row?_line h, commentsAfter_snoc (p := .line l) (by simp [h]),
      Table.addRow]

theorem tableOf_snoc_comment {t : Table} (h : l.kind = .comment)
    (table : tableOf before ps = some t) (last : lastKind before ps = .row) :
    tableOf before (ps ++ [.line l]) = some (t.addComment l.comment) := by
  simp only [tableOf] at table
  cases rows : ps.filterMap Piece.row? with
  | nil => simp [rows] at table
  | cons first others =>
    simp only [rows, Option.some.injEq] at table
    subst table
    have noRow : (Piece.line l).row? = none := Piece.row?_eq_none (by simp [h])
    have owned : (lastKind before ps).ownsForTable = true := by simp [last, Kind.ownsForTable]
    simp [tableOf, rows, noRow, Table.addComment, commentsAfter_snoc_comment h owned]

/-- A piece that is no row leaves a table as it is, unless it is a comment right after a row. -/
theorem tableOf_snoc (h : p.kind ≠ .row)
    (last : p.kind = .comment → lastKind before ps ≠ .row) :
    tableOf before (ps ++ [p]) = tableOf before ps := by
  have comments : commentsAfter Kind.ownsForTable before (ps ++ [p]) =
      commentsAfter Kind.ownsForTable before ps := by
    by_cases hp : p.kind = .comment
    · exact commentsAfter_snoc_of_not_owned (by simp [Kind.ownsForTable, last hp])
    · exact commentsAfter_snoc hp
  simp [tableOf, Piece.row?_eq_none h, comments]

/-! ## Data -/

@[simp] theorem dataOf_append : dataOf (ps ++ qs) = dataOf ps ++ dataOf qs := by
  simp [dataOf]

theorem dataOf_of_isData (h : p.isData = true) : dataOf [p] = [p] := by
  simp [dataOf, h]

theorem dataOf_of_not_isData (h : p.isData = false) : dataOf [p] = [] := by
  simp [dataOf, h]

/-! ## Stretches -/

/-- A piece that does not follow a step ends the stretch of the step before it. -/
theorem stretches_append (h : p.follows = false) :
    stretches (ps ++ p :: qs) = stretches ps ++ stretches (p :: qs) := by
  induction ps with
  | nil => rfl
  | cons q ps ih =>
    cases q with
    | quote => simpa [stretches] using ih
    | line l =>
      have cut : (ps ++ p :: qs).takeWhile Piece.follows = ps.takeWhile Piece.follows := by
        rw [List.takeWhile_append]
        split
        · next all =>
          rw [List.takeWhile_cons_of_neg (by simp [h]), List.append_nil]
          exact ((List.takeWhile_prefix _).eq_of_length all).symm
        · rfl
      cases hk : l.kind <;> simp [stretches, hk, ih, cut]

theorem stretches_of_follows (h : ∀ p ∈ ps, p.follows = true) : stretches ps = [] := by
  induction ps with
  | nil => rfl
  | cons p ps ih =>
    have rest := ih fun q hq => h q (List.mem_cons_of_mem p hq)
    have first := h p List.mem_cons_self
    cases p with
    | quote => simpa [stretches] using rest
    | line l =>
      cases hk : l.kind <;>
        simp_all [stretches, Piece.follows, Piece.isData, Piece.kind, Kind.category]

/-- The stretch of the last step. -/
theorem stretches_snoc_stretch (t : Stretch) (step : t.line.kind = .step t.keyword)
    (after : ∀ p ∈ t.after, p.follows = true) :
    stretches (ps ++ .line t.line :: t.after) = stretches ps ++ [t] := by
  have ends : (Piece.line t.line).follows = false := by
    simp [Piece.follows, Piece.isData, step, Kind.category]
  have whole : t.after.takeWhile Piece.follows = t.after := by
    rw [List.takeWhile_eq_self_iff]
    exact after
  rw [stretches_append ends]
  simp [stretches, step, whole, stretches_of_follows after]

/-- A piece that is no step line and does not follow a step has no stretch. -/
theorem stretches_snoc (ends : p.follows = false) (kind : ∀ k, p.kind ≠ .step k) :
    stretches (ps ++ [p]) = stretches ps := by
  rw [stretches_append ends]
  cases p with
  | quote => simp [stretches]
  | line l => cases hk : l.kind <;> simp_all [stretches]

/-- What follows a step leaves nothing to a container. -/
theorem ownsForContainer_lastKind (first : before.ownsForContainer = false)
    (h : ∀ p ∈ ps, p.follows = true) : (lastKind before ps).ownsForContainer = false := by
  induction ps generalizing before with
  | nil => exact first
  | cons p ps ih =>
    rw [lastKind_cons]
    refine ih ?_ fun q hq => h q (List.mem_cons_of_mem p hq)
    have follows := h p List.mem_cons_self
    split
    · exact first
    · simp only [Piece.follows, Piece.isData, Bool.or_eq_true, decide_eq_true_eq] at follows
      cases hk : p.kind <;> simp_all [Kind.category, Kind.ownsForContainer]

/-- A comment after a header or a description is in no stretch. -/
theorem stretches_snoc_comment (h : p.kind = .comment)
    (last : (lastKind before ps).ownsForContainer = true) :
    stretches (ps ++ [p]) = stretches ps := by
  obtain ⟨c, rfl, hc⟩ := Piece.exists_line_of_comment h
  induction ps generalizing before with
  | nil => simp [stretches, hc]
  | cons q ps ih =>
    rw [lastKind_cons] at last
    have rest := ih last
    cases q with
    | quote => simpa [stretches] using rest
    | line l =>
      cases hk : l.kind with
      | step k =>
        have cut : (ps ++ [Piece.line c]).takeWhile Piece.follows =
            ps.takeWhile Piece.follows := by
          rw [List.takeWhile_append]
          split
          · next all =>
            have follow := List.takeWhile_eq_self_iff.1 ((List.takeWhile_prefix _).eq_of_length all)
            have notOwned : (lastKind (.step k) ps).ownsForContainer = false := by
              exact ownsForContainer_lastKind rfl follow
            simp [hk, notOwned] at last
          · rfl
        simp [stretches, hk, rest, cut]
      | _ => simp [stretches, hk, rest]

end Gherkin
