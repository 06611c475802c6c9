import Gherkin.Proofs.Ownership.Documents
import Gherkin.Proofs.Page.Written

/-!
# What a document carries

The texts in a document were carried by lines of their kinds: titles by headers, the texts of steps
by step lines, the lines of a DocString by lines that are no fence. `Carried` says so of each
element; a document read from a text is carried (`Document.carried_of_ofText`), since each of its
containers is told by a section of the text's lines.
-/

namespace Gherkin

open Text

def Comment.Carried (c : Comment) : Prop :=
  Kind.comment.Carries c.text

structure Table.Carried (t : Table) : Prop where
  rows : ∀ r ∈ t.rows, Kind.row.Carries r.text
  comments : ∀ c ∈ t.comments, c.Carried

structure DocString.Carried (d : DocString) : Prop where
  contentType : (Kind.fence d.opening).Carries (d.contentType.getD "")
  named : d.contentType ≠ some ""
  lines : ∀ s ∈ d.lines, Quotable s

def Argument.Carried : Argument → Prop
  | .table t => t.Carried
  | .docString d => d.Carried

structure Step.Carried (s : Step) : Prop where
  text : (Kind.step s.keyword).Carries s.text
  comments : ∀ c ∈ s.comments, c.Carried
  argument : ∀ a, s.argument = some a → a.Carried

/-- The texts of a header, below a line of the kind. -/
structure Header.Carried (kind : Kind) (h : Header) : Prop where
  title : kind.Carries h.title
  descriptions : ∀ d ∈ h.descriptions, Free d.raw
  comments : ∀ c ∈ h.comments, c.Carried

structure Container.Carried (c : Container) : Prop where
  header : c.header.Carried c.kind
  steps : ∀ s ∈ c.steps, s.Carried
  table : ∀ t, c.table = some t → t.Carried

/-- The entry may stand in a feature that was read. -/
structure Entry.Carried (e : Entry) : Prop where
  containers : ∀ c ∈ e.containers, c.Carried
  legal : e.Legal

structure Document.Carried (d : Document) : Prop where
  comments : ∀ c ∈ d.comments, c.Carried
  header : d.feature.header.Carried .feature
  background : ∀ b, d.feature.background = some b → (Entry.background b).Carried
  items : ∀ i ∈ d.feature.items, (Entry.item i).Carried

/-! ## Lines -/

namespace Line

variable {l : Line}

theorem Sound.carries {k : Kind} (h : l.Sound) (kind : l.kind = k) (shaped : k ≠ .description) :
    k.Carries l.payload := by
  subst kind
  exact carries_of_read? h.2 h.1 shaped

theorem Sound.free (h : l.Sound) (kind : l.kind = .description) : Free l.raw := by
  obtain ⟨-, -, shape | ⟨-, -, nonempty, shapeless⟩⟩ := read?_eq_some_iff.1 h.2
  · rw [kind] at shape
    cases shape
  · exact ⟨h.1, nonempty, shapeless⟩

/-- What is dropped of a margin is white space. -/
theorem exists_append_dropMargin (width : Nat) (cs : List Char) :
    ∃ xs, (∀ c ∈ xs, isBlank c = true) ∧ cs = xs ++ dropMargin width cs := by
  induction width generalizing cs with
  | zero => exact ⟨[], by simp, rfl⟩
  | succ n ih =>
    cases cs with
    | nil => exact ⟨[], by simp, rfl⟩
    | cons c cs =>
      by_cases h : isBlank c = true
      · obtain ⟨xs, blank, cut⟩ := ih cs
        refine ⟨c :: xs, ?_, ?_⟩
        · simpa [h] using blank
        · rw [dropMargin, if_pos h, List.cons_append, ← cut]
      · exact ⟨[], by simp, by rw [dropMargin, if_neg h]; rfl⟩

theorem Sound.quotable (h : l.Sound) (kind : ∀ f, l.kind ≠ .fence f) (width : Nat) :
    Quotable (.ofList (dropMargin width l.raw.toList)) := by
  obtain ⟨xs, blank, cut⟩ := exists_append_dropMargin width l.raw.toList
  have same : trim (dropMargin width l.raw.toList) = trim l.raw.toList := by
    conv_rhs => rw [cut, trim_append_of_blank blank]
  refine ⟨?_, ?_, ?_⟩ <;> rw [String.toList_ofList]
  · intro mem
    apply h.1
    rw [cut]
    exact List.mem_append_right _ mem
  · rw [same]
    intro empty
    have read := h.2
    simp [read?, empty] at read
  · intro f p
    rw [same]
    intro fence
    have read := h.2
    rw [read?_of_payload? fence, Option.some.injEq] at read
    exact kind f (by rw [← read])

end Line

/-! ## Pieces and sections -/

section

variable {ps : List Piece} {before : Kind}

/-- The lines of the pieces were read as they are, and their DocStrings are between fences. -/
def SoundPieces (ps : List Piece) : Prop :=
  ∀ p ∈ ps, p.Proper ∧ ∀ l ∈ p.lines, l.Sound

theorem carried_of_mem_commentsAfter {owner : Kind → Bool} {c : Comment} (h : SoundPieces ps)
    (mem : c ∈ commentsAfter owner before ps) : c.Carried := by
  induction ps generalizing before with
  | nil => cases mem
  | cons p ps ih =>
    have rest : ∀ {k}, c ∈ commentsAfter owner k ps → c.Carried := by
      intro k
      exact ih fun q hq => h q (List.mem_cons_of_mem p hq)
    by_cases hp : p.kind = .comment
    · obtain ⟨l, rfl, hl⟩ := Piece.exists_line_of_comment hp
      rw [commentsAfter_cons_comment hl] at mem
      rcases List.mem_append.1 mem with mem | mem
      · split at mem
        · rw [List.mem_singleton.1 mem]
          exact ((h _ List.mem_cons_self).2 l (by simp)).carries hl (by simp)
        · cases mem
      · exact rest mem
    · rw [commentsAfter_cons hp] at mem
      exact rest mem

theorem table_carried {t : Table} (h : SoundPieces ps) (table : tableOf before ps = some t) :
    t.Carried := by
  simp only [tableOf] at table
  cases rows : ps.filterMap Piece.row? with
  | nil => simp [rows] at table
  | cons first others =>
    simp only [rows, Option.some.injEq] at table
    subst table
    refine ⟨?_, fun c hc => carried_of_mem_commentsAfter h hc⟩
    intro r hr
    rw [Table.rows, ← rows] at hr
    obtain ⟨p, hp, read⟩ := List.mem_filterMap.1 hr
    cases p with
    | quote => cases read
    | line l =>
      simp only [Piece.row?] at read
      split at read
      · next kind =>
        cases read
        exact ((h _ hp).2 l (by simp)).carries kind (by simp)
      · cases read

theorem docString_carried {p : Piece} {d : DocString} (proper : p.Proper)
    (sound : ∀ l ∈ p.lines, l.Sound) (read : p.docString? = some d) : d.Carried := by
  cases p with
  | line => cases read
  | quote opening first content closing last =>
    cases read
    obtain ⟨kind, -, inside⟩ := proper
    have opened : first.Sound := sound first (by simp [Piece.lines])
    refine ⟨?_, ?_, ?_⟩
    · have carried := opened.carries kind (by simp)
      by_cases empty : first.payload = ""
      · simpa [empty] using carried
      · simpa [empty] using carried
    · by_cases empty : first.payload = "" <;> simp [empty]
    · intro s hs
      obtain ⟨l, hl, rfl⟩ := List.mem_map.1 hs
      have quoted : l.Sound := sound l (by simp [Piece.lines, hl])
      exact quoted.quotable (inside l hl) first.margin

theorem mem_of_mem_stretches {t : Stretch} (mem : t ∈ stretches ps) :
    .line t.line ∈ ps ∧ t.line.kind = .step t.keyword ∧ ∀ p ∈ t.after, p ∈ ps := by
  induction ps with
  | nil => cases mem
  | cons p ps ih =>
    have rest : t ∈ stretches ps →
        .line t.line ∈ p :: ps ∧ t.line.kind = .step t.keyword ∧ ∀ q ∈ t.after, q ∈ p :: ps := by
      intro mem
      obtain ⟨line, kind, after⟩ := ih mem
      exact ⟨List.mem_cons_of_mem p line, kind, fun q hq => List.mem_cons_of_mem p (after q hq)⟩
    cases p with
    | quote => exact rest (by simpa [stretches] using mem)
    | line l =>
      by_cases step : ∃ k, l.kind = .step k
      · obtain ⟨k, hk⟩ := step
        simp only [stretches, hk] at mem
        rcases List.mem_cons.1 mem with rfl | mem
        · refine ⟨List.mem_cons_self, hk, ?_⟩
          intro q hq
          exact List.mem_cons_of_mem _ ((List.takeWhile_prefix _).subset hq)
        · exact rest mem
      · apply rest
        cases hk : l.kind <;> simp_all [stretches]

theorem step_carried {t : Stretch} (h : SoundPieces ps) (mem : t ∈ stretches ps) :
    t.step.Carried := by
  obtain ⟨line, kind, after⟩ := mem_of_mem_stretches mem
  have sound : SoundPieces t.after := fun p hp => h p (after p hp)
  refine ⟨?_, fun c hc => carried_of_mem_commentsAfter sound hc, ?_⟩
  · exact ((h _ line).2 t.line (by simp)).carries kind (by simp)
  · intro a ha
    have argument : t.argument = some a := ha
    simp only [Stretch.argument] at argument
    split at argument
    · next table =>
      cases argument
      exact table_carried sound table
    · obtain ⟨d, found, rfl⟩ := Option.map_eq_some_iff.1 argument
      obtain ⟨p, hp, read⟩ := List.exists_of_findSome?_eq_some found
      exact docString_carried (sound p hp).1 (sound p hp).2 read

/-- A section of lines that were read as they are tells a container that is carried. -/
theorem Section.container_carried {s : Section} (proper : s.Proper)
    (sound : ∀ l ∈ s.lines, l.Sound) : s.container.Carried := by
  have pieces : SoundPieces s.body := by
    intro p hp
    refine ⟨(proper.2 p hp).1, ?_⟩
    intro l hl
    exact sound l (List.mem_cons_of_mem _ (List.mem_flatMap.2 ⟨p, hp, hl⟩))
  have shaped : s.header.kind ≠ .description := by
    intro free
    exact absurd proper.1 (by simp [free, Kind.category])
  refine ⟨⟨?_, ?_, ?_⟩, ?_, ?_⟩
  · exact (sound s.header List.mem_cons_self).carries rfl shaped
  · intro d hd
    obtain ⟨p, hp, read⟩ := List.mem_filterMap.1 hd
    cases p with
    | quote => cases read
    | line l =>
      simp only [Piece.description?] at read
      split at read
      · next kind =>
        cases read
        exact ((pieces _ hp).2 l (by simp)).free kind
      · cases read
  · intro c hc
    exact carried_of_mem_commentsAfter pieces hc
  · intro st hst
    obtain ⟨t, ht, rfl⟩ := List.mem_map.1 hst
    exact step_carried pieces ht
  · intro t ht
    simp only [Section.container] at ht
    split at ht
    · exact table_carried pieces ht
    · cases ht

end

/-- A document that was read from a text is carried. -/
theorem Document.carried_of_ofText {text : String} {d : Document}
    (h : Document.ofText text = .ok d) : d.Carried := by
  obtain ⟨lead, ss, entries, cut, told⟩ := exists_told h
  have sound : ∀ l ∈ lead ++ ss.flatMap Section.lines, l.Sound := by
    rw [← cut]
    intro l hl
    exact Line.sound_of_mem_ofText hl
  have carried : ∀ c ∈ d.feature.container :: entries.flatMap Entry.containers, c.Carried := by
    rw [← told.containers]
    intro c hc
    obtain ⟨s, hs, rfl⟩ := List.mem_map.1 hc
    apply Section.container_carried (told.sound s hs).1
    intro l hl
    exact sound l (List.mem_append_right _ (List.mem_flatMap.2 ⟨s, hs, hl⟩))
  have entry : ∀ e ∈ entries, e.Carried := by
    intro e he
    refine ⟨?_, told.legal e he⟩
    intro c hc
    exact carried c (List.mem_cons_of_mem _ (List.mem_flatMap.2 ⟨e, he, hc⟩))
  refine ⟨?_, (carried _ List.mem_cons_self).header, ?_, ?_⟩
  · rw [told.comments]
    intro c hc
    obtain ⟨l, hl, rfl⟩ := List.mem_map.1 hc
    exact (sound l (List.mem_append_left _ hl)).carries (told.preamble l hl) (by simp)
  · intro b hb
    have mem : b ∈ entries.filterMap Entry.background? := by
      rw [told.background, hb]
      simp
    obtain ⟨e, he, read⟩ := List.mem_filterMap.1 mem
    cases e with
    | background b' =>
      cases read
      exact entry _ he
    | item i => cases read
  · intro i hi
    rw [← told.items] at hi
    obtain ⟨e, he, read⟩ := List.mem_filterMap.1 hi
    cases e with
    | background b => cases read
    | item i' =>
      cases read
      exact entry _ he

end Gherkin
