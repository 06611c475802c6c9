import Gherkin.Proofs.DocString.Sealed

/-!
# DocStrings, word for word

Fences alone tell which lines a DocString quotes: `Line.quotes` pairs each opening fence with the
next fence and the lines in between. The sections of a document hold these DocStrings in the order
of the lines (`Line.Encloses`), each section gives them to its steps (`Section.Regular.docStrings`),
and a step says of its DocString what the two fences and the raw texts between them say
(`Line.Quote.Says`).
-/

namespace Gherkin

open Line

/-- Two fences and the lines between them. -/
structure Line.Quote where
  opening : Line
  content : List Line
  closing : Line

namespace Line

/-- The DocStrings that end among the lines, if that of `open?`, its opening fence and the lines
below it, is open before the first. -/
def quotesFrom : (open? : Option (Line × List Line)) → List Line → List Quote
  | _, [] => []
  | none, l :: ls =>
    match l.kind with
    | .fence _ => quotesFrom (some (l, [])) ls
    | _ => quotesFrom none ls
  | some (opening, content), l :: ls =>
    match l.kind with
    | .fence _ => ⟨opening, content, l⟩ :: quotesFrom none ls
    | _ => quotesFrom (some (opening, content ++ [l])) ls

/-- The DocStrings among the lines. -/
def quotes (ls : List Line) : List Quote :=
  quotesFrom none ls

/-- A DocString says what is quoted: the raw texts between the fences, each less the white space in
front of it as far as the opening fence has some, too. -/
structure Quote.Says (q : Quote) (d : DocString) : Prop where
  line : d.line = q.opening.number
  opening : q.opening.kind = .fence d.opening
  closing : q.closing.kind = .fence d.closing
  contentType : d.contentType = if q.opening.payload = "" then none else some q.opening.payload
  lines : d.lines = q.content.map fun l =>
    .ofList (l.raw.toList.drop (min q.opening.margin l.margin))

end Line

/-- The DocString of a step. -/
def Step.docString? (s : Step) : Option DocString :=
  match s.argument with
  | some (.docString d) => some d
  | _ => none

/-- The DocStrings of a container. -/
def Container.docStrings (c : Container) : List DocString :=
  c.steps.filterMap Step.docString?

variable {l opening : Line} {ls content xs ys : List Line} {qs rs : List Quote}

/-! ## Fences -/

namespace Line

theorem quotesFrom_plain (h : ∀ f, l.kind ≠ .fence f) :
    quotesFrom none (l :: ls) = quotesFrom none ls := by
  cases hk : l.kind <;> simp_all [quotesFrom]

theorem quotesFrom_opening {f : Fence} (h : l.kind = .fence f) :
    quotesFrom none (l :: ls) = quotesFrom (some (l, [])) ls := by
  simp only [quotesFrom, h]

theorem quotesFrom_closing {f : Fence} (h : l.kind = .fence f) :
    quotesFrom (some (opening, content)) (l :: ls) =
      ⟨opening, content, l⟩ :: quotesFrom none ls := by
  simp only [quotesFrom, h]

/-- Lines below an open fence go into its DocString. -/
theorem quotesFrom_inside (h : ∀ l ∈ xs, ∀ f, l.kind ≠ .fence f) :
    quotesFrom (some (opening, content)) (xs ++ ls) =
      quotesFrom (some (opening, content ++ xs)) ls := by
  induction xs generalizing content with
  | nil => simp
  | cons x xs ih =>
    have one : quotesFrom (some (opening, content)) (x :: (xs ++ ls)) =
        quotesFrom (some (opening, content ++ [x])) (xs ++ ls) := by
      have plain := h x List.mem_cons_self
      cases hk : x.kind <;> simp_all [quotesFrom]
    rw [List.cons_append, one, ih fun l hl => h l (List.mem_cons_of_mem x hl)]
    simp

/-- The lines open and close the DocStrings `qs`, whatever comes after them. -/
def Encloses (ls : List Line) (qs : List Quote) : Prop :=
  ∀ after, quotes (ls ++ after) = qs ++ quotes after

theorem Encloses.quotes_eq (h : Encloses ls qs) : quotes ls = qs := by
  simpa [quotes, quotesFrom] using h []

theorem Encloses.append (h : Encloses xs qs) (more : Encloses ys rs) :
    Encloses (xs ++ ys) (qs ++ rs) := by
  intro after
  rw [List.append_assoc, h, more, List.append_assoc]

theorem encloses_of_not_fence (h : ∀ l ∈ ls, ∀ f, l.kind ≠ .fence f) : Encloses ls [] := by
  intro after
  induction ls with
  | nil => rfl
  | cons l ls ih =>
    rw [List.cons_append, quotes, quotesFrom_plain (h l List.mem_cons_self)]
    exact ih fun m hm => h m (List.mem_cons_of_mem l hm)

theorem encloses_flatMap {f : α → List Line} {g : α → List Quote} {as : List α}
    (h : ∀ a ∈ as, Encloses (f a) (g a)) : Encloses (as.flatMap f) (as.flatMap g) := by
  induction as with
  | nil => exact fun _ => rfl
  | cons a as ih =>
    exact (h a List.mem_cons_self).append (ih fun b hb => h b (List.mem_cons_of_mem a hb))

end Line

/-! ## Pieces and sections -/

/-- The lines of the piece, if it is a DocString. -/
def Piece.quote? : Piece → Option Quote
  | .line _ => none
  | .quote _ opening content _ closing => some ⟨opening, content, closing⟩

theorem Piece.Proper.encloses {p : Piece} (h : p.Proper) : Encloses p.lines p.quote?.toList := by
  cases p with
  | line l => exact encloses_of_not_fence (by simpa [Piece.Proper] using h)
  | quote _ opening content _ closing =>
    obtain ⟨opens, closes, inside⟩ := h
    intro after
    rw [Piece.lines, List.append_assoc, quotes, List.cons_append, quotesFrom_opening opens,
      quotesFrom_inside inside, List.singleton_append, quotesFrom_closing closes]
    rfl

theorem Section.Proper.encloses {s : Section} (h : s.Proper) :
    Encloses s.lines (s.body.filterMap Piece.quote?) := by
  rw [List.filterMap_eq_flatMap_toList]
  exact (encloses_of_not_fence h.header_not_fence).append
    (encloses_flatMap fun p hp => (h.2 p hp).1.encloses)

/-- A DocString among the pieces says what it quotes. -/
theorem Piece.Proper.quoted {p : Piece} (h : p.Proper) :
    (p.quote? = none ∧ p.docString? = none) ∨
      ∃ q d, p.quote? = some q ∧ p.docString? = some d ∧ q.Says d := by
  cases p with
  | line l => exact .inl ⟨rfl, rfl⟩
  | quote _ opening content _ closing =>
    obtain ⟨opens, closes, -⟩ := h
    refine .inr ⟨_, _, rfl, rfl, rfl, opens, closes, ?_, ?_⟩
    · simp only [String.isEmpty_iff]
    · simp only [Text.dropMargin_eq_drop]
      rfl

theorem forall₂_quoted {ps : List Piece} (h : ∀ p ∈ ps, p.Proper) :
    List.Forall₂ Quote.Says (ps.filterMap Piece.quote?) (ps.filterMap Piece.docString?) := by
  induction ps with
  | nil => exact .nil
  | cons p ps ih =>
    have rest := ih fun r hr => h r (List.mem_cons_of_mem p hr)
    rcases (h p List.mem_cons_self).quoted with ⟨none, none'⟩ | ⟨q, d, quote, read, told⟩
    · simpa only [List.filterMap_cons, none, none'] using rest
    · simpa only [List.filterMap_cons, quote, read] using List.Forall₂.cons told rest

/-! ## Steps -/

/-- Only data says a DocString. -/
theorem filterMap_docString?_dataOf (ps : List Piece) :
    (dataOf ps).filterMap Piece.docString? = ps.filterMap Piece.docString? := by
  rw [dataOf, List.filterMap_filter]
  refine List.filterMap_congr fun p _ => ?_
  split
  · rfl
  · next noData => rw [Stretch.docString?_of_not_isData (by simpa using noData)]

theorem docString?_of_row {p : Piece} (h : p.kind = .row) : p.docString? = none := by
  cases p with
  | line => rfl
  | quote => cases h

namespace Stretch

variable {t : Stretch}

/-- The step of a stretch without rows has the first DocString of it. -/
theorem docString?_step (noTable : tableOf (.step t.keyword) t.after = none) :
    t.step.docString? = (t.after.filterMap Piece.docString?).head? := by
  rw [List.head?_filterMap, Step.docString?, step, argument_of_no_table noTable]
  cases t.after.findSome? Piece.docString? <;> rfl

/-- A step has each DocString that follows it. -/
theorem SingleArgument.docString? (h : t.SingleArgument) :
    t.step.docString?.toList = t.after.filterMap Piece.docString? := by
  rw [← filterMap_docString?_dataOf]
  have ofRows : (∀ p ∈ dataOf t.after, p.kind = .row) →
      t.step.docString?.toList = (dataOf t.after).filterMap Piece.docString? := by
    intro rows
    have none : (dataOf t.after).filterMap Piece.docString? = [] := by
      rw [List.filterMap_eq_nil_iff]
      exact fun p hp => docString?_of_row (rows p hp)
    rw [none]
    cases table : tableOf (.step t.keyword) t.after with
    | none =>
      rw [docString?_step table, ← filterMap_docString?_dataOf, none]
      rfl
    | some table =>
      rw [Step.docString?, step, argument_of_tableOf (by assumption)]
      rfl
  rcases h with rows | ⟨p, only⟩
  · exact ofRows rows
  · by_cases row : p.kind = .row
    · exact ofRows (by simp [only, row])
    · have noTable : tableOf (.step t.keyword) t.after = none :=
        tableOf_eq_none fun q hq => kind_ne_row_of_dataOf (by simp [only, row]) hq
      rw [docString?_step noTable, ← filterMap_docString?_dataOf, only]
      cases hp : p.docString? <;> simp [hp]

end Stretch

/-- A container has each DocString of its section, and in that order. -/
theorem Section.Regular.docStrings {s : Section} (h : s.Regular) :
    s.container.docStrings = s.body.filterMap Piece.docString? := by
  have ofSteps (data : s.DataInSteps) :
      s.container.docStrings = s.body.filterMap Piece.docString? := by
    obtain ⟨all, single⟩ := data
    calc s.container.docStrings
      _ = (stretches s.body).flatMap fun t => t.step.docString?.toList := by
        rw [Container.docStrings, container, steps, List.filterMap_map,
          List.filterMap_eq_flatMap_toList]
        rfl
      _ = (stretches s.body).flatMap fun t => (dataOf t.after).filterMap Piece.docString? := by
        refine List.flatMap_congr fun t ht => ?_
        rw [(single t ht).docString?, filterMap_docString?_dataOf]
      _ = s.body.filterMap Piece.docString? := by
        rw [← filterMap_docString?_dataOf, all, List.filterMap_flatMap]
  cases kind : s.header.kind with
  | examples k =>
    rw [Regular, kind] at h
    have none : s.body.filterMap Piece.docString? = [] := by
      rw [List.filterMap_eq_nil_iff]
      intro p hp
      cases p with
      | line => rfl
      | quote => rcases h.kind _ hp with hk | hk | hk <;> cases hk
    rw [none, Container.docStrings, container, steps, h.stretches_eq_nil]
    rfl
  | _ => exact ofSteps (by simpa only [Regular, kind] using h)

/-! ## Documents -/

namespace Document

variable {d : Document} {lead : List Line} {ss : List Section} {entries : List Entry}

theorem Told.quotes_eq (h : d.Told lead ss entries) :
    quotes (lead ++ ss.flatMap Section.lines) =
      (ss.flatMap Section.body).filterMap Piece.quote? := by
  have above := encloses_of_not_fence (not_fence_of_comments h.preamble)
  have below := encloses_flatMap fun s hs => (h.sound s hs).1.encloses
  rw [List.filterMap_flatMap]
  exact (above.append below).quotes_eq

theorem Told.docStrings_eq (h : d.Told lead ss entries) :
    (entries.flatMap Entry.containers).flatMap Container.docStrings =
      (ss.flatMap Section.body).filterMap Piece.docString? := by
  calc (entries.flatMap Entry.containers).flatMap Container.docStrings
    _ = (ss.map Section.container).flatMap Container.docStrings := by
      rw [h.containers]
      rfl
    _ = (ss.flatMap Section.body).filterMap Piece.docString? := by
      rw [List.flatMap_map, List.filterMap_flatMap]
      exact List.flatMap_congr fun s hs => (h.sound s hs).2.docStrings

/-- **Verbatim.** Lines in DocStrings are read by their raw texts alone, and each DocString of a
document is what its two fences and the raw texts between them say. -/
theorem docStrings_verbatim :
    (∀ ls ms, SameButQuoted false ls ms → ofLines ls = ofLines ms) ∧
      ∀ ls d, ofLines ls = .ok d → ∃ entries : List Entry,
        entries.filterMap Entry.background? = d.feature.background.toList ∧
        entries.filterMap Entry.item? = d.feature.items ∧
        List.Forall₂ Quote.Says (quotes ls)
          ((entries.flatMap Entry.containers).flatMap Container.docStrings) := by
  refine ⟨fun ls ms same => ofLines_eq_of_sameButQuoted same, ?_⟩
  intro ls d read
  obtain ⟨lead, ss, entries, rfl, told⟩ := exists_told read
  refine ⟨entries, told.background, told.items, ?_⟩
  rw [told.quotes_eq, told.docStrings_eq]
  refine forall₂_quoted fun p hp => ?_
  obtain ⟨s, hs, hp⟩ := List.mem_flatMap.1 hp
  exact ((told.sound s hs).1.2 p hp).1

end Document

/-- The lines of a scenario whose step has a DocString, which quotes a header and a step, each with
more or less white space in front than the opening fence. -/
def snippetLines : List Line :=
  [⟨.feature, "F", 1, "Feature: F"⟩, ⟨.scenario .scenario, "S", 2, "Scenario: S"⟩,
   ⟨.step .given, "x", 3, "Given x"⟩, ⟨.fence .quotes, "md", 4, "  \"\"\" md"⟩,
   ⟨.rule, "R", 5, "   Rule: R"⟩, ⟨.step .when, "y", 6, " When y"⟩,
   ⟨.fence .backticks, "end", 7, "``` end"⟩]

/-- The lines of `snippetLines`, with the quoted ones read as something else. -/
def misreadLines : List Line :=
  [⟨.feature, "F", 1, "Feature: F"⟩, ⟨.scenario .scenario, "S", 2, "Scenario: S"⟩,
   ⟨.step .given, "x", 3, "Given x"⟩, ⟨.fence .quotes, "md", 4, "  \"\"\" md"⟩,
   ⟨.comment, "R", 0, "   Rule: R"⟩, ⟨.row, "|", 9, " When y"⟩, ⟨.fence .backticks, "", 8, "```"⟩]

/-- The document of `snippetLines`. -/
def snippetDocument : Document :=
  let doc : DocString := ⟨4, .quotes, .backticks, some "md", [" Rule: R", "When y"]⟩
  let step : Step := ⟨.given, 3, "x", [], some (.docString doc)⟩
  ⟨[], ⟨⟨1, "F", [], []⟩, none, [.scenario ⟨.scenario, ⟨2, "S", [], []⟩, [step]⟩]⟩⟩

theorem snippetDocument_verbatim :
    SameButQuoted false snippetLines misreadLines ∧
      Document.ofLines snippetLines = .ok snippetDocument ∧
      Document.ofLines snippetLines = Document.ofLines misreadLines ∧
      ∃ entries : List Entry,
        entries.filterMap Entry.item? = snippetDocument.feature.items ∧
        List.Forall₂ Quote.Says (quotes snippetLines)
          ((entries.flatMap Entry.containers).flatMap Container.docStrings) := by
  have read : Document.ofLines snippetLines = .ok snippetDocument := by rfl
  have closed : SameButQuoted true
      [⟨.fence .backticks, "end", 7, "``` end"⟩] [⟨.fence .backticks, "", 8, "```"⟩] :=
    .closing rfl rfl .nil
  have inside : SameButQuoted true
      (snippetLines.drop 4) (misreadLines.drop 4) :=
    .quoted (by simp) (by simp) rfl (.quoted (by simp) (by simp) rfl closed)
  have same : SameButQuoted false snippetLines misreadLines :=
    .plain (by simp) (.plain (by simp) (.plain (by simp) (.opening rfl inside)))
  obtain ⟨entries, -, items, verbatim⟩ := Document.docStrings_verbatim.2 _ _ read
  exact ⟨same, read, Document.docStrings_verbatim.1 _ _ same, entries, items, verbatim⟩

end Gherkin
