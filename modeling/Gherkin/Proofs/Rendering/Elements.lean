import Gherkin.Document.Element
import Mathlib.Data.List.Basic

/-!
# All elements of an element

The elements of an element are the element itself and then those of its comments, descriptions and
other parts, in the order of the layout (`Element.elements_eq`). Its page has the lines that they
write on their own (`Element.texts_page`). In a document each element is followed by all of its own
(`Document.whole_elements`).
-/

namespace Gherkin

def Table.elements (t : Table) : List Element :=
  .table t :: t.comments.map .comment

def Argument.elements : Argument → List Element
  | .table t => t.elements
  | .docString d => [.docString d]

def Step.elements (s : Step) : List Element :=
  .step s :: (s.comments.map .comment ++ s.argument.toList.flatMap Argument.elements)

/-- The elements below a header, `content` being those that the container holds besides. -/
def Header.elements (h : Header) (content : List Element) : List Element :=
  h.comments.map .comment ++ (h.descriptions.map .description ++ content)

def Background.elements (b : Background) : List Element :=
  .background b :: b.header.elements (b.steps.flatMap Step.elements)

def Scenario.elements (s : Scenario) : List Element :=
  .scenario s :: s.header.elements (s.steps.flatMap Step.elements)

def Examples.elements (e : Examples) : List Element :=
  .examples e :: e.header.elements (e.table.toList.flatMap Table.elements)

def Outline.elements (o : Outline) : List Element :=
  .outline o :: o.header.elements (o.steps.flatMap Step.elements ++ o.examples.elements)

def Rule.elements (r : Rule) : List Element :=
  .rule r :: r.header.elements (r.scenarios.flatMap Scenario.elements)

def Item.elements : Item → List Element
  | .scenario s => s.elements
  | .rule r => r.elements
  | .outline o => o.elements

def Feature.elements (f : Feature) : List Element :=
  .feature f :: f.header.elements
    (f.background.toList.flatMap Background.elements ++ f.items.flatMap Item.elements)

/-- The elements of a document, the comments before its feature first. -/
def Document.elements (d : Document) : List Element :=
  d.comments.map .comment ++ d.feature.elements

namespace Element

/-- The element and all elements below it. -/
def elements : Element → List Element
  | .feature f => f.elements
  | .background b => b.elements
  | .rule r => r.elements
  | .scenario s => s.elements
  | .outline o => o.elements
  | .examples e => e.elements
  | .step s => s.elements
  | .table t => t.elements
  | .docString d => [.docString d]
  | .comment c => [.comment c]
  | .description d => [.description d]

@[simp] theorem elements_argument (a : Argument) : a.element.elements = a.elements := by
  cases a <;> rfl

@[simp] theorem elements_item (i : Item) : i.element.elements = i.elements := by
  cases i <;> rfl

/-- Below an element are its comments and its parts, and what is below these. -/
theorem elements_eq (e : Element) :
    e.elements = e :: (e.comments.map .comment ++ e.parts.flatMap elements) := by
  have single : ∀ ds : List Description,
      (ds.map Element.description).flatMap elements = ds.map .description := by
    intro ds
    rw [List.flatMap_map]
    exact List.map_eq_flatMap.symm
  cases e <;>
    simp only [parts, descriptions, content, comments, header?, Option.map_some, Option.map_none,
      Option.getD_some, Option.getD_none, List.flatMap_append, single, Option.toList_map,
      List.flatMap_map, elements_argument, elements_item, List.flatMap_cons, List.flatMap_nil,
      List.append_nil, List.map_nil, List.nil_append] <;>
    rfl

/-- The lines that the element writes on its own. -/
def ownTexts : Element → List String
  | .feature f => [Kind.feature.written f.header.title]
  | .background b => [Kind.background.written b.header.title]
  | .rule r => [Kind.rule.written r.header.title]
  | .scenario s => [(Kind.scenario s.keyword).written s.header.title]
  | .outline o => [(Kind.outline o.keyword).written o.header.title]
  | .examples e => [(Kind.examples e.keyword).written e.header.title]
  | .step s => [(Kind.step s.keyword).written s.text]
  | .table t => t.rows.map Row.text
  | .docString d =>
    (Kind.fence d.opening).written (d.contentType.getD "") :: d.lines ++ [d.closing.text]
  | .comment c => [Kind.comment.written c.text]
  | .description d => [d.text]

end Element

/-! ## Pages -/

/-- The texts of the lines of a page. -/
def Page.texts (p : Page) : List String :=
  p.map PageLine.text

namespace Page

variable {p q : Page}

@[simp] theorem texts_append : texts (p ++ q) = texts p ++ texts q :=
  List.map_append

@[simp] theorem texts_nested : texts (nested p) = texts p := by
  simp [texts, nested, PageLine.nest]

@[simp] theorem texts_line (text : String) : texts (line text) = [text] := rfl

@[simp] theorem texts_keywordLine (kind : Kind) (text : String) :
    texts (keywordLine kind text) = [kind.written text] := rfl

theorem texts_flatMap {page : α → Page} {texts : α → List String}
    (h : ∀ a, Page.texts (page a) = texts a) (as : List α) :
    Page.texts (as.flatMap page) = as.flatMap texts := by
  rw [Page.texts, List.map_flatMap]
  exact List.flatMap_congr fun a _ => h a

theorem texts_ofOption {page : α → Page} {texts : α → List String}
    (h : ∀ a, Page.texts (page a) = texts a) (a : Option α) :
    Page.texts (ofOption page a) = a.toList.flatMap texts := by
  cases a with
  | none => rfl
  | some a =>
    rw [ofOption, Option.toList_some, List.flatMap_singleton]
    exact h a

end Page

open Page Element

theorem texts_comments (cs : List Comment) :
    texts (cs.flatMap Comment.page) = (cs.map Element.comment).flatMap ownTexts := by
  rw [List.flatMap_map]
  exact texts_flatMap (fun _ => rfl) cs

theorem texts_descriptions (ds : List Description) :
    texts (ds.flatMap Description.page) = (ds.map Element.description).flatMap ownTexts := by
  rw [List.flatMap_map]
  exact texts_flatMap (fun _ => rfl) ds

theorem Table.texts_page (t : Table) : texts t.page = t.elements.flatMap ownTexts := by
  have rows : texts (t.rows.flatMap fun r => Page.line r.text) = t.rows.map Row.text := by
    rw [texts_flatMap (fun r : Row => texts_line r.text), List.map_eq_flatMap]
  rw [page, texts_append, rows, texts_comments, elements, List.flatMap_cons]
  rfl

theorem DocString.texts_page (d : DocString) : texts d.page = (Element.docString d).ownTexts := by
  have lines : texts (d.lines.flatMap Page.line) = d.lines := by
    rw [texts_flatMap texts_line, List.flatMap_singleton']
  simp [page, lines, ownTexts]

theorem Argument.texts_page (a : Argument) : texts a.page = a.elements.flatMap ownTexts := by
  cases a with
  | table t => exact t.texts_page
  | docString d =>
    rw [elements, List.flatMap_singleton]
    exact d.texts_page

theorem Step.texts_page (s : Step) : texts s.page = s.elements.flatMap ownTexts := by
  simp [page, elements, texts_comments, texts_ofOption Argument.texts_page, ownTexts,
    List.flatMap_assoc]

theorem texts_steps (ss : List Step) :
    texts (ss.flatMap Step.page) = (ss.flatMap Step.elements).flatMap ownTexts := by
  rw [texts_flatMap Step.texts_page, List.flatMap_assoc]

theorem Header.texts_page (h : Header) {kind : Kind} {parts : Page} {content : List Element}
    (below : texts parts = content.flatMap ownTexts) :
    texts (h.page kind parts) =
      kind.written h.title :: (h.elements content).flatMap ownTexts := by
  simp [page, elements, texts_comments, texts_descriptions, below]

theorem Scenario.texts_page (s : Scenario) : texts s.page = s.elements.flatMap ownTexts :=
  s.header.texts_page (texts_steps s.steps)

theorem Background.texts_page (b : Background) : texts b.page = b.elements.flatMap ownTexts :=
  b.header.texts_page (texts_steps b.steps)

theorem Examples.texts_page (e : Examples) : texts e.page = e.elements.flatMap ownTexts := by
  refine e.header.texts_page ?_
  rw [texts_ofOption Table.texts_page, List.flatMap_assoc]

theorem Outline.texts_page (o : Outline) : texts o.page = o.elements.flatMap ownTexts := by
  refine o.header.texts_page ?_
  rw [texts_append, texts_steps, o.examples.texts_page, List.flatMap_append]

theorem Rule.texts_page (r : Rule) : texts r.page = r.elements.flatMap ownTexts := by
  refine r.header.texts_page ?_
  rw [texts_flatMap Scenario.texts_page, List.flatMap_assoc]

theorem Item.texts_page (i : Item) : texts i.page = i.elements.flatMap ownTexts := by
  cases i with
  | scenario s => exact s.texts_page
  | rule r => exact r.texts_page
  | outline o => exact o.texts_page

theorem Feature.texts_page (f : Feature) : texts f.page = f.elements.flatMap ownTexts := by
  refine f.header.texts_page ?_
  rw [texts_append, texts_ofOption Background.texts_page, texts_flatMap Item.texts_page,
    List.flatMap_append, List.flatMap_assoc, List.flatMap_assoc]

theorem Document.texts_page (d : Document) : texts d.page = d.elements.flatMap ownTexts := by
  rw [page, texts_append, texts_comments, d.feature.texts_page, elements, List.flatMap_append]

/-- The page of an element has the lines that it and the elements below it write on their own. -/
theorem Element.texts_page (e : Element) : texts e.page = e.elements.flatMap ownTexts := by
  cases e with
  | feature f => exact f.texts_page
  | background b => exact b.texts_page
  | rule r => exact r.texts_page
  | scenario s => exact s.texts_page
  | outline o => exact o.texts_page
  | examples e => exact e.texts_page
  | step s => exact s.texts_page
  | table t => exact t.texts_page
  | docString d =>
    rw [elements, List.flatMap_singleton]
    exact d.texts_page
  | comment c => rfl
  | description d => rfl

/-! ## Elements within others -/

namespace Element

/-- Each element in the list is followed by all elements below it. -/
def Whole (es : List Element) : Prop :=
  ∀ before e rest, es = before ++ e :: rest → ∃ after, e :: rest = e.elements ++ after

variable {es fs : List Element} {e : Element}

theorem whole_nil : Whole [] := by
  intro before e rest h
  simp at h

theorem Whole.append (h : Whole es) (h' : Whole fs) : Whole (es ++ fs) := by
  intro before e rest cut
  rcases List.append_eq_append_iff.1 cut with ⟨more, rfl, right⟩ | ⟨more, left, right⟩
  · exact h' more e rest right
  · cases more with
    | nil =>
      rw [List.nil_append] at right
      exact h' [] e rest right.symm
    | cons e' more =>
      rw [List.cons_append, List.cons.injEq] at right
      obtain ⟨rfl, rfl⟩ := right
      obtain ⟨after, same⟩ := h before e more left
      exact ⟨after ++ fs, by rw [← List.append_assoc, ← same, List.cons_append]⟩

/-- An element goes before what is below it. -/
theorem whole_cons (own : e.elements = e :: es) (h : Whole es) : Whole (e :: es) := by
  intro before x rest cut
  cases before with
  | nil =>
    cases cut
    exact ⟨[], by rw [own, List.append_nil]⟩
  | cons y before =>
    cases cut
    exact h before x rest rfl

theorem whole_flatMap {elements : α → List Element} (h : ∀ a, Whole (elements a)) (as : List α) :
    Whole (as.flatMap elements) := by
  induction as with
  | nil => exact whole_nil
  | cons a as ih => exact (h a).append ih

/-- Elements with nothing below them. -/
theorem whole_map {element : α → Element} (h : ∀ a, (element a).elements = [element a])
    (as : List α) : Whole (as.map element) := by
  rw [List.map_eq_flatMap]
  exact whole_flatMap (fun a => whole_cons (h a) whole_nil) as

end Element

theorem whole_comments (cs : List Comment) : Whole (cs.map .comment) :=
  whole_map (fun _ => rfl) cs

theorem Table.whole (t : Table) : Whole t.elements :=
  whole_cons rfl (whole_comments t.comments)

theorem Argument.whole (a : Argument) : Whole a.elements := by
  cases a with
  | table t => exact t.whole
  | docString d => exact whole_cons rfl whole_nil

theorem Step.whole (s : Step) : Whole s.elements :=
  whole_cons rfl ((whole_comments s.comments).append (whole_flatMap Argument.whole _))

theorem Header.whole (h : Header) {content : List Element} (below : Whole content) :
    Whole (h.elements content) :=
  (whole_comments h.comments).append ((whole_map (fun _ => rfl) h.descriptions).append below)

theorem Background.whole (b : Background) : Whole b.elements :=
  whole_cons rfl (b.header.whole (whole_flatMap Step.whole b.steps))

theorem Scenario.whole (s : Scenario) : Whole s.elements :=
  whole_cons rfl (s.header.whole (whole_flatMap Step.whole s.steps))

theorem Examples.whole (e : Examples) : Whole e.elements :=
  whole_cons rfl (e.header.whole (whole_flatMap Table.whole e.table.toList))

theorem Outline.whole (o : Outline) : Whole o.elements :=
  whole_cons rfl (o.header.whole ((whole_flatMap Step.whole o.steps).append o.examples.whole))

theorem Rule.whole (r : Rule) : Whole r.elements :=
  whole_cons rfl (r.header.whole (whole_flatMap Scenario.whole r.scenarios))

theorem Item.whole (i : Item) : Whole i.elements := by
  cases i with
  | scenario s => exact s.whole
  | rule r => exact r.whole
  | outline o => exact o.whole

theorem Feature.whole (f : Feature) : Whole f.elements :=
  whole_cons rfl (f.header.whole
    ((whole_flatMap Background.whole f.background.toList).append
      (whole_flatMap Item.whole f.items)))

/-- In a document each element is followed by all elements below it. -/
theorem Document.whole_elements (d : Document) : Whole d.elements :=
  (whole_comments d.comments).append d.feature.whole

end Gherkin
