import Gherkin.Proofs.Rendering.Sources
import Gherkin.Proofs.Ownership.Numbers

/-!
# The lines of a document, divided up

All lines of a section are divided up among the element that its header opens and those below it
(`Section.covers`), and the lines of a document among the elements of the document
(`Document.covers`): no line is built into two elements, and none is left out. Where a comment goes
is told by what stands before it, where data goes by the step right before it; `behind` is what
belongs to a step whose line has gone before.
-/

namespace Gherkin

open Element

/-! ## What stands below a header -/

/-- A piece is a line of a step, or it is not of its kind. -/
theorem Piece.step_or (p : Piece) :
    (∃ k l, p = .line l ∧ l.kind = .step k) ∨ ∀ k, p.kind ≠ .step k := by
  cases p with
  | quote => exact .inr fun _ h => nomatch h
  | line l => cases hk : l.kind <;> simp [hk]

/-- A piece below a header is a comment, a description, a step line or data. -/
theorem Piece.cases_below {p : Piece} (below : p.kind.category ≠ .container) :
    p.kind = .comment ∨ p.kind = .description ∨
      (∃ k l, p = .line l ∧ l.kind = .step k) ∨ p.isData = true := by
  cases p with
  | quote => exact .inr (.inr (.inr rfl))
  | line l => cases hk : l.kind <;> simp_all [Kind.category, Piece.isData]

/-! What follows a step: comments and data do, descriptions and steps do not. -/

namespace Piece

variable {p : Piece} {l : Line} {k : StepKeyword}

theorem follows_of_comment (h : p.kind = .comment) : p.follows = true := by
  simp [follows, h, Kind.category]

theorem follows_of_isData (h : p.isData = true) : p.follows = true := by
  simp [follows, h]

theorem follows_of_description (h : p.kind = .description) : p.follows = false := by
  simp [follows, isData, h, Kind.category]

theorem follows_of_step (h : l.kind = .step k) : (Piece.line l).follows = false := by
  simp [follows, isData, h, Kind.category]

end Piece

section Cons

variable {p : Piece} {ps : List Piece} {l : Line} {k : StepKeyword}

theorem stretches_cons (h : ∀ k, p.kind ≠ .step k) : stretches (p :: ps) = stretches ps := by
  cases p with
  | quote => rfl
  | line l => cases hk : l.kind <;> simp_all [stretches]

theorem stretches_cons_step (h : l.kind = .step k) :
    stretches (.line l :: ps) = ⟨k, l, ps.takeWhile Piece.follows⟩ :: stretches ps := by
  simp [stretches, h]

theorem follows_of_mem_stretches {t : Stretch} (mem : t ∈ stretches ps) :
    ∀ q ∈ t.after, q.follows = true := by
  induction ps with
  | nil => cases mem
  | cons p ps ih =>
    rcases p.step_or with ⟨k, l, rfl, kind⟩ | other
    · rw [stretches_cons_step kind] at mem
      rcases List.mem_cons.1 mem with rfl | mem
      · intro q hq
        exact List.mem_takeWhile_imp hq
      · exact ih mem
    · rw [stretches_cons other] at mem
      exact ih mem

theorem kind_ne_of_isData (h : p.isData = true) :
    p.kind ≠ .comment ∧ p.kind ≠ .description ∧ (∀ k, p.kind ≠ .step k) ∧
      p.kind.ownsForContainer = false := by
  cases hk : p.kind <;> simp_all [Piece.isData, Kind.category, Kind.ownsForContainer]

end Cons

/-- The data right behind a step and the data of the steps among the pieces. -/
def dataOfSteps (ps : List Piece) : List Piece :=
  dataOf (ps.takeWhile Piece.follows) ++ (stretches ps).flatMap fun t => dataOf t.after

theorem dataOfSteps_sublist (ps : List Piece) : (dataOfSteps ps).Sublist (dataOf ps) := by
  unfold dataOfSteps
  induction ps with
  | nil => exact .slnil
  | cons p ps ih =>
    have later : ((stretches ps).flatMap fun t => dataOf t.after).Sublist (dataOf ps) :=
      (List.sublist_append_right _ _).trans ih
    have skip : (dataOf ps).Sublist (dataOf (p :: ps)) :=
      (List.sublist_cons_self p ps).filter _
    rcases p.step_or with ⟨k, l, rfl, hl⟩ | other
    · rw [List.takeWhile_cons_of_neg (by simp [Piece.follows_of_step hl]), stretches_cons_step hl,
        List.flatMap_cons]
      exact ih.trans skip
    · rw [stretches_cons other]
      cases follows : p.follows with
      | false =>
        rw [List.takeWhile_cons_of_neg (by simp [follows])]
        exact later.trans skip
      | true =>
        rw [List.takeWhile_cons_of_pos follows]
        cases data : p.isData with
        | true =>
          rw [dataOf_cons data, dataOf_cons data]
          exact ih.cons_cons p
        | false =>
          rw [dataOf_cons_of_not_isData data, dataOf_cons_of_not_isData data]
          exact ih

/-- The lines of the descriptions. -/
def descriptionLines (ps : List Piece) : List Line :=
  (ps.filter (·.kind = .description)).flatMap Piece.lines

theorem covers_descriptions (whole : List Line) (ps : List Piece) :
    Covers whole ((ps.filterMap Piece.description?).map .description) (descriptionLines ps) := by
  unfold descriptionLines
  induction ps with
  | nil => exact .nil
  | cons p ps ih =>
    by_cases h : p.kind = .description
    · cases p with
      | quote => cases h
      | line l =>
        have cut : (Piece.line l :: ps).filter (·.kind = .description) =
            Piece.line l :: ps.filter (·.kind = .description) :=
          List.filter_cons_of_pos (decide_eq_true h)
        rw [List.filterMap_cons_some (Piece.description?_line h), cut]
        exact .cons (.description h) ih
    · rwa [List.filterMap_cons_none (Piece.description?_eq_none h),
        List.filter_cons_of_neg (by simpa using h)]

/-- What right behind a step belongs to it. -/
def behind (before : Kind) (ps : List Piece) : List Piece :=
  if before.ownsForContainer then [] else ps.takeWhile Piece.follows

section Behind

variable {before : Kind} {p : Piece} {ps : List Piece}

theorem behind_of_owned (h : before.ownsForContainer = true) : behind before ps = [] := by
  rw [behind, if_pos h]

theorem behind_eq_takeWhile (h : before.ownsForContainer = false) :
    behind before ps = ps.takeWhile Piece.follows := by
  rw [behind, if_neg (by simp [h])]

/-- A piece that does not follow a step has nothing before it that belongs to the step. -/
theorem behind_cons_of_ends (h : p.follows = false) : behind before (p :: ps) = [] := by
  rw [behind, List.takeWhile_cons_of_neg (by simp [h]), ite_self]

end Behind

/-- All data among the pieces belongs to steps, to one before them if `before` is of a step. -/
def DataOfSteps (before : Kind) (ps : List Piece) : Prop :=
  dataOf ps = dataOf (behind before ps) ++ (stretches ps).flatMap fun t => dataOf t.after

namespace DataOfSteps

variable {before : Kind} {p : Piece} {ps : List Piece} {l : Line} {k : StepKeyword}

theorem of_comment (h : DataOfSteps before (p :: ps)) (comment : p.kind = .comment) :
    DataOfSteps before ps := by
  have noData : p.isData = false := by simp [Piece.isData, comment, Kind.category]
  unfold DataOfSteps behind at h ⊢
  rw [stretches_cons (by simp [comment]), dataOf_cons_of_not_isData noData,
    List.takeWhile_cons_of_pos (Piece.follows_of_comment comment)] at h
  cases owns : before.ownsForContainer <;> simpa [owns, dataOf, noData] using h

theorem of_description (h : DataOfSteps before (p :: ps)) (description : p.kind = .description) :
    DataOfSteps .description ps := by
  have noData : p.isData = false := by simp [Piece.isData, description, Kind.category]
  unfold DataOfSteps at h ⊢
  rw [stretches_cons (by simp [description]),
    behind_cons_of_ends (Piece.follows_of_description description)] at h
  rw [behind_of_owned rfl]
  simpa [dataOf, noData] using h

theorem of_step (h : DataOfSteps before (.line l :: ps)) (step : l.kind = .step k) :
    DataOfSteps (.step k) ps := by
  have noData : (Piece.line l).isData = false := by simp [Piece.isData, step, Kind.category]
  unfold DataOfSteps at h ⊢
  rw [stretches_cons_step step, behind_cons_of_ends (Piece.follows_of_step step)] at h
  rw [behind_eq_takeWhile rfl]
  simpa [dataOf, noData] using h

/-- Data right behind a step is the first that belongs to it; elsewhere there is none. -/
theorem of_isData (h : DataOfSteps before (p :: ps)) (data : p.isData = true) :
    before.ownsForContainer = false ∧ DataOfSteps p.kind ps := by
  obtain ⟨-, -, noStep, notOwned⟩ := kind_ne_of_isData data
  unfold DataOfSteps at h ⊢
  rw [stretches_cons noStep, dataOf_cons data] at h
  cases owns : before.ownsForContainer with
  | true =>
    -- The steps would have more data than there is.
    rw [behind_of_owned owns] at h
    have sublist := (List.sublist_append_right _ _).trans (dataOfSteps_sublist ps)
    have long := congrArg List.length h
    have short := sublist.length_le
    simp only [dataOf, List.filter_nil, List.nil_append, List.length_cons] at long short
    omega
  | false =>
    rw [behind_eq_takeWhile owns, List.takeWhile_cons_of_pos (Piece.follows_of_isData data),
      dataOf_cons data, List.cons_append, List.cons.injEq] at h
    rw [behind_eq_takeWhile notOwned]
    exact ⟨rfl, h.2⟩

end DataOfSteps

/-- The lines below a header, divided up: those that belong to the step they are right behind, if
`before` is of a step, the comments of the container, the descriptions, and the stretches. -/
def divided (before : Kind) (ps : List Piece) : List Line :=
  (behind before ps).flatMap Piece.lines ++ (commentLinesAfter Kind.ownsForContainer before ps ++
    (descriptionLines ps ++ (stretches ps).flatMap Stretch.lines))

section Divided

variable {before : Kind} {p : Piece} {ps : List Piece} {l : Line} {k : StepKeyword}

theorem divided_cons_comment (comment : p.kind = .comment) :
    (divided before (p :: ps)).Perm (p.lines ++ divided before ps) := by
  have noDescription : descriptionLines (p :: ps) = descriptionLines ps := by
    simp [descriptionLines, comment]
  rw [divided, divided, stretches_cons (by simp [comment]), noDescription, commentLinesAfter,
    if_pos comment, List.perm_iff_count]
  intro m
  cases owns : before.ownsForContainer with
  | true =>
    simp only [behind_of_owned owns, List.count_append, if_true]
    omega
  | false =>
    rw [behind_eq_takeWhile owns, behind_eq_takeWhile owns,
      List.takeWhile_cons_of_pos (Piece.follows_of_comment comment)]
    simp only [List.flatMap_cons, List.count_append, Bool.false_eq_true, if_false, List.count_nil]
    omega

theorem divided_cons_description (description : p.kind = .description) :
    (divided before (p :: ps)).Perm (p.lines ++ divided .description ps) := by
  have gains : descriptionLines (p :: ps) = p.lines ++ descriptionLines ps := by
    simp [descriptionLines, description]
  have next : commentLinesAfter Kind.ownsForContainer before (p :: ps) =
      commentLinesAfter Kind.ownsForContainer .description ps := by
    rw [commentLinesAfter, if_neg (by simp [description]), description]
  rw [divided, divided, stretches_cons (by simp [description]), gains, next,
    behind_cons_of_ends (Piece.follows_of_description description), behind_of_owned rfl,
    List.perm_iff_count]
  intro m
  simp only [List.count_append, List.flatMap_nil, List.count_nil]
  omega

theorem divided_cons_step (step : l.kind = .step k) :
    (divided before (.line l :: ps)).Perm ([l] ++ divided (.step k) ps) := by
  have same : descriptionLines (.line l :: ps) = descriptionLines ps := by
    simp [descriptionLines, step]
  have next : commentLinesAfter Kind.ownsForContainer before (.line l :: ps) =
      commentLinesAfter Kind.ownsForContainer (.step k) ps := by
    rw [commentLinesAfter, if_neg (by simp [step]), Piece.kind_line, step]
  rw [divided, divided, stretches_cons_step step, same, next,
    behind_cons_of_ends (Piece.follows_of_step step), behind_eq_takeWhile rfl, List.flatMap_cons,
    Stretch.lines, List.perm_iff_count]
  intro m
  simp only [List.count_append, List.flatMap_nil, List.count_nil, List.count_cons]
  omega

theorem divided_cons_isData (owns : before.ownsForContainer = false) (data : p.isData = true) :
    divided before (p :: ps) = p.lines ++ divided p.kind ps := by
  obtain ⟨noComment, noDescription, noStep, notOwned⟩ := kind_ne_of_isData data
  have same : descriptionLines (p :: ps) = descriptionLines ps := by
    simp [descriptionLines, noDescription]
  have next : commentLinesAfter Kind.ownsForContainer before (p :: ps) =
      commentLinesAfter Kind.ownsForContainer p.kind ps := by
    rw [commentLinesAfter, if_neg noComment]
  rw [divided, divided, stretches_cons noStep, same, next, behind_eq_takeWhile owns,
    behind_eq_takeWhile notOwned, List.takeWhile_cons_of_pos (Piece.follows_of_isData data),
    List.flatMap_cons, List.append_assoc]

end Divided

/-- No line below a header is left over, if all data belongs to steps. -/
theorem body_perm {before : Kind} {ps : List Piece} (below : ∀ p ∈ ps, p.kind.category ≠ .container)
    (data : DataOfSteps before ps) : (ps.flatMap Piece.lines).Perm (divided before ps) := by
  induction ps generalizing before with
  | nil => simp [divided, behind, commentLinesAfter, descriptionLines, stretches]
  | cons p ps ih =>
    rw [List.forall_mem_cons] at below
    rw [List.flatMap_cons]
    rcases Piece.cases_below below.1 with comment | description | ⟨k, l, rfl, step⟩ | isData
    · have rest := ih below.2 (data.of_comment comment)
      exact (rest.append_left p.lines).trans (divided_cons_comment comment).symm
    · have rest := ih below.2 (data.of_description description)
      exact (rest.append_left p.lines).trans (divided_cons_description description).symm
    · have rest := ih below.2 (data.of_step step)
      exact (rest.append_left [l]).trans (divided_cons_step step).symm
    · obtain ⟨owns, later⟩ := data.of_isData isData
      rw [divided_cons_isData owns isData]
      exact (ih below.2 later).append_left p.lines

/-- Below the header of a block of examples stand descriptions, rows and comments. -/
theorem noted_perm {ps : List Piece}
    (kind : ∀ p ∈ ps, p.kind = .row ∨ p.kind = .comment ∨ p.kind = .description) :
    ((ps.filter (!·.kind = .comment)).flatMap Piece.lines).Perm
      (descriptionLines ps ++ (ps.filter (·.kind = .row)).flatMap Piece.lines) := by
  have descriptions : (ps.filter (!·.kind = .comment)).filter (·.kind = .description) =
      ps.filter (·.kind = .description) := by
    rw [List.filter_filter]
    refine List.filter_congr fun p hp => ?_
    rcases kind p hp with h | h | h <;> simp [h]
  have rows : (ps.filter (!·.kind = .comment)).filter (!·.kind = .description) =
      ps.filter (·.kind = .row) := by
    rw [List.filter_filter]
    refine List.filter_congr fun p hp => ?_
    rcases kind p hp with h | h | h <;> simp [h]
  have parts := List.filter_append_perm (·.kind = .description)
    (ps.filter (!·.kind = .comment))
  rw [descriptions, rows] at parts
  rw [descriptionLines, ← List.flatMap_append]
  exact parts.symm.flatMap_right _

/-! ## Sections -/

/-- The elements of a container, that of the container itself and those below its other parts
aside. -/
def Container.elements (c : Container) : List Element :=
  c.header.elements (c.steps.flatMap Step.elements ++ c.table.toList.flatMap Table.elements)

namespace Section

variable {whole : List Line} {s : Section}

theorem covers_steps (proper : s.Proper) (inside : ∀ p ∈ s.body, p.lines <:+: whole)
    (single : ∀ t ∈ stretches s.body, t.SingleArgument) :
    Covers whole (s.steps.flatMap Step.elements) ((stretches s.body).flatMap Stretch.lines) := by
  rw [steps, List.flatMap_map]
  refine Covers.flatMap fun t ht => ?_
  obtain ⟨-, kind, after⟩ := mem_of_mem_stretches ht
  exact Stretch.covers kind (follows_of_mem_stretches ht) (fun p hp => (proper.2 p (after p hp)).1)
    (fun p hp => inside p (after p hp)) (single t ht)

/-- The notes of a section go to its header, whatever goes to what else there is. -/
theorem covers_notes {es : List Element} {ls : List Line} (rest : Covers whole es ls) :
    Covers whole (s.ownHeader.elements es)
      (commentLinesAfter Kind.ownsForContainer s.header.kind s.body ++
        (descriptionLines s.body ++ ls)) :=
  covers_comments.append ((covers_descriptions whole s.body).append rest)

/-- Where all data belongs to steps. -/
theorem covers_body_of_steps (proper : s.Proper) (inside : ∀ p ∈ s.body, p.lines <:+: whole)
    (data : s.DataInSteps) :
    Covers whole (s.ownHeader.elements (s.steps.flatMap Step.elements))
      (s.body.flatMap Piece.lines) := by
  have owned : s.header.kind.ownsForContainer = true := by
    simp [Kind.ownsForContainer, proper.1]
  have ofSteps : DataOfSteps s.header.kind s.body := by
    rw [DataOfSteps, behind_of_owned owned]
    exact data.1
  have perm := body_perm (fun p hp => (proper.2 p hp).2) ofSteps
  rw [divided, behind_of_owned owned, List.flatMap_nil, List.nil_append] at perm
  exact (covers_notes (covers_steps proper inside data.2)).perm_lines perm.symm

/-- Where all data is in one table. -/
theorem covers_body_of_table (whole : List Line) {k : ExamplesKeyword} (kind : s.header.kind = .examples k)
    (data : s.DataInTable) :
    Covers whole
      (s.ownHeader.elements ((tableOf s.header.kind s.body).toList.flatMap Table.elements))
      (s.body.flatMap Piece.lines) := by
  have below : ((s.body.filter (·.kind = .comment)).flatMap Piece.lines).Perm
      (commentLinesAfter Kind.ownsForContainer s.header.kind s.body ++
        commentLinesAfter Kind.ownsForTable s.header.kind s.body) := by
    rw [kind]
    refine comments_perm rfl fun p hp noComment => ?_
    rcases data.kind p hp with h | h | h <;>
      simp_all [Kind.ownsForContainer, Kind.ownsForTable, Kind.category]
  have all := (lines_perm s.body).trans (below.append (noted_perm data.kind))
  refine (covers_notes (covers_table (by simp [kind]))).perm_lines (List.Perm.trans ?_ all.symm)
  rw [List.perm_iff_count]
  intro l
  simp only [List.count_append]
  omega

/-- The lines below a header are divided up among the elements of the container. -/
theorem covers_body (proper : s.Proper) (regular : s.Regular)
    (inside : ∀ p ∈ s.body, p.lines <:+: whole) :
    Covers whole s.container.elements (s.body.flatMap Piece.lines) := by
  by_cases examples : ∃ k, s.header.kind = .examples k
  · obtain ⟨k, kind⟩ := examples
    have data : s.DataInTable := by simpa [Regular, kind] using regular
    have none : s.steps = [] := by rw [steps, data.stretches_eq_nil, List.map_nil]
    have table : s.container.table = tableOf s.header.kind s.body := by simp [container, kind]
    have covers := covers_body_of_table whole kind data
    rwa [← table, ← List.nil_append (List.flatMap _ _), ← List.flatMap_nil, ← none] at covers
  · have data : s.DataInSteps := by
      cases kind : s.header.kind <;> simp_all [Regular]
    have table : s.container.table = none := by
      cases kind : s.header.kind <;> simp_all [container]
    have covers := covers_body_of_steps proper inside data
    rwa [← List.append_nil (List.flatMap _ _), ← List.flatMap_nil, ← Option.toList_none, ← table]
      at covers

end Section

/-! ## Documents -/

/-- The sections tell the containers, and each stands in `whole`. -/
structure Tells (whole : List Line) (ss : List Section) (cs : List Container) : Prop where
  sound : ∀ s ∈ ss, s.Proper ∧ s.Regular ∧ s.lines <:+: whole
  told : ss.map Section.container = cs

section Tells

variable {whole : List Line} {ss : List Section} {cs ds : List Container} {c : Container}
  {e : Element} {es : List Element}

theorem Tells.exists_append (h : Tells whole ss (cs ++ ds)) :
    ∃ tt uu, ss = tt ++ uu ∧ Tells whole tt cs ∧ Tells whole uu ds := by
  obtain ⟨tt, uu, rfl, first, later⟩ := List.map_eq_append_iff.1 h.told
  exact ⟨tt, uu, rfl, ⟨fun s hs => h.sound s (List.mem_append_left uu hs), first⟩,
    ⟨fun s hs => h.sound s (List.mem_append_right tt hs), later⟩⟩

/-- The lines of a section go to the element that its header opens and to the elements of its
container. -/
theorem Section.covers {s : Section} (proper : s.Proper) (regular : s.Regular)
    (inside : s.lines <:+: whole) (header : e.header? = some s.container.header)
    (kind : e.headerKind? = some s.container.kind) :
    Covers whole (e :: s.container.elements) s.lines := by
  refine .cons (.container header kind rfl rfl) (covers_body proper regular fun p hp => ?_)
  obtain ⟨before, after, cut⟩ := List.append_of_mem hp
  refine List.IsInfix.trans ⟨s.header :: before.flatMap Piece.lines, after.flatMap Piece.lines, ?_⟩
    inside
  simp [lines, cut]

/-- The lines of a container go to its element and the elements of the container, and the lines of
the containers after it to what these hold. -/
theorem covers_container (header : e.header? = some c.header) (kind : e.headerKind? = some c.kind)
    (h : Tells whole ss (c :: cs))
    (rest : ∀ tt, Tells whole tt cs → Covers whole es (tt.flatMap Section.lines)) :
    Covers whole (e :: (c.elements ++ es)) (ss.flatMap Section.lines) := by
  cases ss with
  | nil => cases h.told
  | cons s ss =>
    have told := h.told
    rw [List.map_cons, List.cons.injEq] at told
    obtain ⟨rfl, later⟩ := told
    obtain ⟨proper, regular, inside⟩ := h.sound s List.mem_cons_self
    exact (s.covers proper regular inside header kind).append
      (rest ss ⟨fun t ht => h.sound t (List.mem_cons_of_mem s ht), later⟩)

/-- A container with nothing after it. -/
theorem covers_single (header : e.header? = some c.header) (kind : e.headerKind? = some c.kind)
    (h : Tells whole ss [c]) : Covers whole (e :: c.elements) (ss.flatMap Section.lines) := by
  have nothing : ∀ tt, Tells whole tt [] → Covers whole [] (tt.flatMap Section.lines) := by
    intro tt told
    rw [List.map_eq_nil_iff.1 told.told]
    exact .nil
  have covers := covers_container header kind h nothing
  rwa [List.append_nil] at covers

theorem covers_flatMap {elements : α → List Element} {containers : α → List Container}
    (h : ∀ a ss, Tells whole ss (containers a) →
      Covers whole (elements a) (ss.flatMap Section.lines))
    {as : List α} (told : Tells whole ss (as.flatMap containers)) :
    Covers whole (as.flatMap elements) (ss.flatMap Section.lines) := by
  induction as generalizing ss with
  | nil =>
    rw [List.map_eq_nil_iff.1 told.told]
    exact .nil
  | cons a as ih =>
    obtain ⟨tt, uu, rfl, first, later⟩ := told.exists_append
    rw [List.flatMap_append]
    exact (h a tt first).append (ih later)

end Tells

/-! Below its element, what a container holds with its lines comes first. -/

theorem Background.elements_eq (b : Background) :
    b.elements = .background b :: b.container.elements := by
  simp [elements, Container.elements, container]

theorem Scenario.elements_eq (s : Scenario) :
    s.elements = .scenario s :: s.container.elements := by
  simp [elements, Container.elements, container]

theorem Rule.elements_eq (r : Rule) : r.elements = .rule r ::
    (Container.elements ⟨.rule, r.header, [], none⟩ ++ r.scenarios.flatMap Scenario.elements) := by
  simp [elements, Container.elements, Header.elements]

theorem Outline.elements_eq (o : Outline) : o.elements = .outline o ::
    (Container.elements ⟨.outline o.keyword, o.header, o.steps, none⟩ ++ o.examples.elements) := by
  simp [elements, Container.elements, Header.elements]

theorem Feature.elements_eq (f : Feature) : f.elements = .feature f ::
    (f.container.elements ++
      (f.background.toList.flatMap Background.elements ++ f.items.flatMap Item.elements)) := by
  simp [elements, Container.elements, container, Header.elements]

/-- The elements of what stands below the header of a feature. -/
def Entry.elements : Entry → List Element
  | .background b => b.elements
  | .item i => i.elements

/-- The elements of a feature have its background first. -/
theorem entries_perm (entries : List Entry) :
    ((entries.filterMap Entry.background?).flatMap Background.elements ++
      (entries.filterMap Entry.item?).flatMap Item.elements).Perm
        (entries.flatMap Entry.elements) := by
  induction entries with
  | nil => exact .nil
  | cons e entries ih =>
    cases e with
    | background b =>
      have first := ih.append_left b.elements
      rwa [← List.append_assoc] at first
    | item i =>
      refine List.Perm.trans ?_ (ih.append_left i.elements)
      exact List.perm_append_comm_assoc _ _ _

section

variable {whole : List Line} {ss : List Section}

theorem Background.covers {b : Background} (h : Tells whole ss [b.container]) :
    Covers whole b.elements (ss.flatMap Section.lines) := by
  rw [elements_eq]
  exact covers_single rfl rfl h

theorem Scenario.covers (s : Scenario) (h : Tells whole ss [s.container]) :
    Covers whole s.elements (ss.flatMap Section.lines) := by
  rw [elements_eq]
  exact covers_single rfl rfl h

theorem Examples.covers {e : Examples} (h : Tells whole ss [e.container]) :
    Covers whole e.elements (ss.flatMap Section.lines) :=
  covers_single (e := .examples e) rfl rfl h

theorem Item.covers {i : Item} (h : Tells whole ss i.containers) :
    Covers whole i.elements (ss.flatMap Section.lines) := by
  cases i with
  | scenario s => exact s.covers h
  | rule r =>
    rw [elements, Rule.elements_eq]
    refine covers_container rfl rfl h fun tt told => ?_
    rw [List.map_eq_flatMap] at told
    exact covers_flatMap (fun s _ own => s.covers own) told
  | outline o =>
    rw [elements, Outline.elements_eq]
    exact covers_container rfl rfl h fun tt told => Examples.covers told

theorem Entry.covers {e : Entry} (h : Tells whole ss e.containers) :
    Covers whole e.elements (ss.flatMap Section.lines) := by
  cases e with
  | background b => exact Background.covers h
  | item i => exact Item.covers h

end

/-- The lines of a document are divided up among its elements. -/
theorem Document.covers {ls : List Line} {d : Document} (h : ofLines ls = .ok d) :
    Covers ls d.elements ls := by
  obtain ⟨lead, ss, entries, cut, told⟩ := exists_told h
  have inside : ∀ s ∈ ss, s.lines <:+: ls := by
    intro s hs
    obtain ⟨before, after, rfl⟩ := List.append_of_mem hs
    refine ⟨lead ++ before.flatMap Section.lines, after.flatMap Section.lines, ?_⟩
    simp [cut]
  have sections : Tells ls ss (d.feature.container :: entries.flatMap Entry.containers) :=
    ⟨fun s hs => ⟨(told.sound s hs).1, (told.sound s hs).2, inside s hs⟩, told.containers⟩
  have feature : Covers ls
      (.feature d.feature :: (d.feature.container.elements ++ entries.flatMap Entry.elements))
      (ss.flatMap Section.lines) :=
    covers_container rfl rfl sections fun tt below => covers_flatMap (fun _ _ => Entry.covers) below
  have ordered := entries_perm entries
  rw [told.background, told.items] at ordered
  have all := (covers_comment_lines told.preamble).append
    (feature.perm_elements ((ordered.append_left _).cons _))
  rwa [← told.comments, ← d.feature.elements_eq, ← cut] at all

end Gherkin
