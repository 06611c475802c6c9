import Gherkin.Proofs.Rendering.Division
import Gherkin.Proofs.Rendering.Writer
import Gherkin.Proofs.Loading.Blanks
import Gherkin.Proofs.RoundTrip.OneLiners

/-!
# Rendering and nesting

An element of a document that was read from a text is written at a depth as it is at depth 0, two
spaces a level in front of each line (`Writer.Nests`), and in as many lines as the text has lines
that are not blank and belong to it or to an element below it. Both need that no line of a page has
a line feed in it, which is so for what was read.
-/

namespace Gherkin

open Writer Element

/-- So many spaces. -/
def Text.spaces (n : Nat) : String :=
  .ofList (List.replicate n ' ')

theorem Text.indentation_spaces (n : Nat) : Text.Indentation (spaces n) where
  blank c hc := by
    rw [spaces, String.toList_ofList] at hc
    rw [List.eq_of_mem_replicate hc]
    decide
  noFeed := by simp [spaces]
  noReturn := by simp [spaces]

/-- What the writing adds is the text of the page: in a writer at depth 0 as it is, and at every
other depth, as inside that many levels, with two spaces a level in front of each line. It leaves
what has been written before and the depth as they are. -/
structure Writer.Nests (write : Writer → Writer) (page : Page) : Prop where
  fresh : write ⟨"", 0⟩ = ⟨page.text, 0⟩
  atDepth : ∀ w, write w = ⟨w.text ++ Text.indented (Text.spaces (2 * w.depth)) page.text, w.depth⟩
  within : ∀ k w, within k write w =
    ⟨w.text ++ Text.indented (Text.spaces (2 * (w.depth + k))) page.text, w.depth⟩
  nested : ∀ k, (Page.nested^[k] page).text = Text.indented (Text.spaces (2 * k)) page.text

namespace Page

variable {p : Page}

theorem deepen_eq_iterate (k : Nat) : p.deepen k = Page.nested^[k] p := by
  induction k with
  | zero => exact deepen_zero
  | succ k ih =>
    rw [Function.iterate_succ_apply', ← ih, nested_eq_deepen, deepen_deepen, Nat.add_comm]

theorem oneLiners_iff_texts : p.OneLiners ↔ ∀ s ∈ p.texts, '\n' ∉ s.toList := by
  simp [OneLiners, texts]

end Page

theorem Writer.margin_eq_spaces (depth : Nat) : margin depth = Text.spaces (2 * depth) := by
  apply String.toList_inj.1
  rw [Page.toList_margin, Text.spaces, String.toList_ofList, indent]

theorem Writer.Puts.nests {write : Writer → Writer} {page : Page} (h : Puts write page)
    (oneLiners : page.OneLiners) : Nests write page where
  fresh := by
    rw [h, Page.deepen_zero, String.empty_append]
  atDepth w := by
    rw [h.eq_indented oneLiners, margin_eq_spaces]
  within k w := by
    rw [h.within, Page.deepen_deepen, Page.text_deepen oneLiners, margin_eq_spaces]
  nested k := by
    rw [← Page.deepen_eq_iterate, Page.text_deepen oneLiners, margin_eq_spaces]

namespace Line

theorem map_raw_readFrom (n : Nat) (raws : List String) :
    (readFrom n raws).map raw = raws.filter fun raw => !Text.isAllBlank raw := by
  induction raws generalizing n with
  | nil => rfl
  | cons raw raws ih =>
    cases blank : Text.isAllBlank raw with
    | true => simp [readFrom, read?_of_blank blank, blank, ih]
    | false =>
      obtain ⟨l, read, -⟩ := read?_of_not_blank (f := id) blank n
      simp [readFrom, read, blank, ih, (read?_number read).2]

/-- The lines that are read of a text are those that are not blank. -/
theorem map_raw_ofText (text : String) : (ofText text).map raw = Text.content text :=
  map_raw_readFrom 1 _

end Line

/-- Elements write as many lines on their own as they are built from. -/
theorem length_flatten_of_built {whole : List Line} {es : List Element}
    {shares : List (List Line)} (h : List.Forall₂ (BuiltFrom whole) es shares) :
    (es.flatMap ownTexts).length = shares.flatten.length := by
  induction h with
  | nil => rfl
  | cons first _ ih =>
    rw [List.flatMap_cons, List.length_append, List.flatten_cons, List.length_append, ih,
      first.length_eq]

/-- An indented text has as many lines. -/
theorem length_lines_text {p : Page} (h : p.OneLiners) (n : Nat) :
    (Text.lines (Text.indented (Text.spaces n) p.text)).length = p.texts.length := by
  rw [Text.lines_indented (Text.indentation_spaces n), List.length_map, Page.lines_text h,
    List.length_map, Page.texts, List.length_map]

namespace Document

variable {text : String} {d : Document}

/-- No line of an element of a document has a line feed in it. -/
theorem oneLiners_page (h : ofText text = .ok d) {e : Element} (mem : e ∈ d.elements) :
    e.page.OneLiners := by
  rw [Page.oneLiners_iff_texts, e.texts_page]
  have all := Page.oneLiners_iff_texts.1 (carried_of_ofText h).oneLiners
  rw [d.texts_page] at all
  obtain ⟨before, rest, cut⟩ := List.append_of_mem mem
  obtain ⟨after, below⟩ := d.whole_elements before e rest cut
  intro s hs
  refine all s ?_
  rw [cut, below, List.flatMap_append, List.flatMap_append]
  exact List.mem_append_right _ (List.mem_append_left _ hs)

/-- **Rendering commutes with nesting.** A document that was read from a text, and each of its
elements, is written at a depth as at depth 0 with two spaces a level in front of each line, after
what was written before and with the depth as it was. The lines of the text that are not blank are
divided up among the elements, and an element, at any depth, is written in as many lines as it and
the elements below it are built from. -/
theorem rendering_commutes_with_nesting (h : ofText text = .ok d) :
    (Line.ofText text).map Line.raw = Text.content text ∧
      Nests d.write d.page ∧
      (∀ k, (Text.lines (Text.indented (Text.spaces (2 * k)) d.render)).length =
        (Line.ofText text).length) ∧
      (∀ e ∈ d.elements, Nests e.write e.page) ∧
      ∃ shares, List.Forall₂ (BuiltFrom (Line.ofText text)) d.elements shares ∧
        shares.flatten.Perm (Line.ofText text) ∧
        ∀ before e rest, d.elements = before ++ e :: rest →
          e.elements <+: e :: rest ∧
          ∀ k, (Text.lines (Text.indented (Text.spaces (2 * k)) e.page.text)).length =
            ((shares.drop before.length).take e.elements.length).flatten.length := by
  have oneLiners := (carried_of_ofText h).oneLiners
  obtain ⟨shares, built, perm⟩ := covers h
  refine ⟨Line.map_raw_ofText text, d.puts_write.nests oneLiners, fun k => ?_,
    fun e he => e.puts_write.nests (oneLiners_page h he), shares, built, perm, ?_⟩
  · rw [render, length_lines_text oneLiners, d.texts_page, length_flatten_of_built built,
      perm.length_eq]
  · intro before e rest cut
    obtain ⟨after, below⟩ := d.whole_elements before e rest cut
    have own : List.Forall₂ (BuiltFrom (Line.ofText text)) e.elements
        ((shares.drop before.length).take e.elements.length) := by
      have later := List.forall₂_drop before.length built
      rw [cut, List.drop_left, below] at later
      have first := List.forall₂_take e.elements.length later
      rwa [List.take_left] at first
    refine ⟨⟨after, below.symm⟩, fun k => ?_⟩
    rw [length_lines_text (oneLiners_page h (cut ▸ List.mem_append_right _ List.mem_cons_self)),
      e.texts_page, length_flatten_of_built own]

end Document

/-- A text with every kind of element, among them a table and a DocString. -/
def allKinds : String :=
  "# c1\n\nFeature: F\nfree\nBackground:\nGiven a\nRule: R\nScenario: S\nWhen b\n" ++
    "|x|\n  # c2\n|y|\nScenario Outline: O\nThen <n>\n```md\n one\n\n  two\n```\nExamples:\n|n|\n|1|\n"

/-- The document of `allKinds`. -/
def allKindsDocument : Document :=
  let table : Table := ⟨⟨10, "|x|"⟩, [⟨12, "|y|"⟩], [⟨11, "c2"⟩]⟩
  let docString : DocString := ⟨15, .backticks, .backticks, some "md", [" one", "  two"]⟩
  ⟨[⟨1, "c1"⟩], ⟨3, "F", [⟨4, "free"⟩], []⟩,
    some ⟨⟨5, "", [], []⟩, [⟨.given, 6, "a", [], none⟩]⟩,
    [.rule ⟨⟨7, "R", [], []⟩,
      [⟨.scenario, ⟨8, "S", [], []⟩, [⟨.when, 9, "b", [], some (.table table)⟩]⟩]⟩,
      .outline ⟨.outline, ⟨13, "O", [], []⟩,
        [⟨.then_, 14, "<n>", [], some (.docString docString)⟩],
        .examples, ⟨20, "", [], []⟩, some ⟨⟨21, "|n|"⟩, [⟨22, "|1|"⟩], []⟩⟩]⟩

theorem allKinds_rendering_commutes_with_nesting :
    Document.ofText allKinds = .ok allKindsDocument ∧
      Nests allKindsDocument.write allKindsDocument.page ∧
      ∀ k, (Text.lines (Text.indented (Text.spaces (2 * k)) allKindsDocument.render)).length =
        20 := by
  have read : Document.ofText allKinds = .ok allKindsDocument := by decide +kernel
  have count : (Line.ofText allKinds).length = 20 := by decide +kernel
  obtain ⟨-, nests, lines, -⟩ := Document.rendering_commutes_with_nesting read
  rw [count] at lines
  exact ⟨read, nests, lines⟩

end Gherkin
