import Gherkin.Document.Element
import Gherkin.Proofs.Loading.Indented
import Gherkin.Proofs.Page.Lines

/-!
# Writing element by element

A writer keeps what it has written and the depth it writes at; what is written one level deeper is
written with the depth raised, which is lowered afterwards. Each element can write itself that way,
and what it writes is its page (`Element.puts_write`): the writer goes on from what was written
before, at the depth it had. Inside some levels of nesting it writes the text of its page with as
many margins in front of each line (`Page.text_deepen`).
-/

namespace Gherkin

/-- What has been written, and the depth at which the next line is written. -/
structure Writer where
  text : String
  depth : Nat
  deriving DecidableEq, Repr

namespace Writer

/-- The margin at a depth: two spaces a level. -/
def margin (depth : Nat) : String :=
  String.join (List.replicate depth "  ")

/-- Writes a line. -/
def line (text : String) (w : Writer) : Writer :=
  { w with text := w.text ++ margin w.depth ++ text ++ "\n" }

/-- Writes a line of the kind that carries `text`. -/
def keywordLine (kind : Kind) (text : String) : Writer → Writer :=
  line (kind.written text)

/-- Writes one level deeper. -/
def nested (body : Writer → Writer) (w : Writer) : Writer :=
  let inner := body { w with depth := w.depth + 1 }
  { inner with depth := inner.depth - 1 }

/-- Writes what is listed, one after the other. -/
def all (write : α → Writer → Writer) (as : List α) (w : Writer) : Writer :=
  as.foldl (fun w a => write a w) w

/-- Writes some levels deeper. -/
def within : Nat → (Writer → Writer) → Writer → Writer
  | 0, body => body
  | depth + 1, body => nested (within depth body)

end Writer

open Writer

/-! ## Elements that write themselves -/

def Comment.write (c : Comment) : Writer → Writer :=
  keywordLine .comment c.text

def Description.write (d : Description) : Writer → Writer :=
  Writer.line d.text

/-- A table writes its rows and then its comments. -/
def Table.write (t : Table) (w : Writer) : Writer :=
  all Comment.write t.comments (all (fun r => Writer.line r.text) t.rows w)

/-- A DocString writes its fences at its own depth, and its lines as they are. -/
def DocString.write (d : DocString) (w : Writer) : Writer :=
  Writer.line d.closing.text
    (all Writer.line d.lines (keywordLine (.fence d.opening) (d.contentType.getD "") w))

def Argument.write : Argument → Writer → Writer
  | .table t => t.write
  | .docString d => d.write

/-- A step writes its comments and its argument below its line. -/
def Step.write (s : Step) (w : Writer) : Writer :=
  nested (fun w => all Argument.write s.argument.toList (all Comment.write s.comments w))
    (keywordLine (.step s.keyword) s.text w)

/-- A container writes its comments, its descriptions and what it holds below its header. -/
def Header.write (h : Header) (kind : Kind) (content : Writer → Writer) (w : Writer) : Writer :=
  nested (fun w => content (all Description.write h.descriptions (all Comment.write h.comments w)))
    (keywordLine kind h.title w)

def Background.write (b : Background) : Writer → Writer :=
  b.header.write .background (all Step.write b.steps)

def Scenario.write (s : Scenario) : Writer → Writer :=
  s.header.write (.scenario s.keyword) (all Step.write s.steps)

def Examples.write (e : Examples) : Writer → Writer :=
  e.header.write (.examples e.keyword) (all Table.write e.table.toList)

def Outline.write (o : Outline) : Writer → Writer :=
  o.header.write (.outline o.keyword) fun w => o.examples.write (all Step.write o.steps w)

def Rule.write (r : Rule) : Writer → Writer :=
  r.header.write .rule (all Scenario.write r.scenarios)

def Item.write : Item → Writer → Writer
  | .scenario s => s.write
  | .rule r => r.write
  | .outline o => o.write

def Feature.write (f : Feature) : Writer → Writer :=
  f.header.write .feature fun w =>
    all Item.write f.items (all Background.write f.background.toList w)

/-- A document writes the comments before the feature, and the feature. -/
def Document.write (d : Document) (w : Writer) : Writer :=
  d.feature.write (all Comment.write d.comments w)

def Element.write : Element → Writer → Writer
  | .feature f => f.write
  | .background b => b.write
  | .rule r => r.write
  | .scenario s => s.write
  | .outline o => o.write
  | .examples e => e.write
  | .step s => s.write
  | .table t => t.write
  | .docString d => d.write
  | .comment c => c.write
  | .description d => d.write

/-! ## What is written -/

namespace Page

variable {p : Page} {depth : Nat}

theorem nested_eq_deepen : nested p = deepen 1 p := by
  rw [← deepen_zero (p := nested p), deepen_nested]

theorem deepen_deepen {more : Nat} : deepen depth (deepen more p) = deepen (depth + more) p := by
  simp [deepen, Nat.add_assoc]

/-- Characters without line feed get one margin if they begin a line. -/
theorem indentFrom_append {w cs rest : List Char} (h : '\n' ∉ cs) :
    Text.indentFrom w true (cs ++ '\n' :: rest) =
      w ++ cs ++ '\n' :: Text.indentFrom w true rest := by
  have later : ∀ cs : List Char, '\n' ∉ cs →
      Text.indentFrom w false (cs ++ '\n' :: rest) = cs ++ '\n' :: Text.indentFrom w true rest := by
    intro cs h
    induction cs with
    | nil => simp [Text.indentFrom]
    | cons c cs ih =>
      rw [List.mem_cons, not_or] at h
      simp [Text.indentFrom, Ne.symm h.1, ih h.2]
  cases cs with
  | nil => simp [Text.indentFrom]
  | cons c cs =>
    rw [List.mem_cons, not_or] at h
    simp [Text.indentFrom, Ne.symm h.1, later cs h.2]

theorem toList_margin (depth : Nat) : (margin depth).toList = indent depth := by
  induction depth with
  | zero => rfl
  | succ depth ih =>
    have joined : margin (depth + 1) = "  " ++ margin depth := by
      simp [margin, List.replicate_succ]
    rw [joined, String.toList_append, ih]
    rfl

/-- The text of a page some levels deeper has the margin in front of each line. -/
theorem text_deepen (h : p.OneLiners) :
    (p.deepen depth).text = Text.indented (margin depth) p.text := by
  apply String.toList_inj.1
  rw [Text.indented, toList_margin, text, text, String.toList_ofList, String.toList_ofList,
    String.toList_ofList]
  induction p with
  | nil => rfl
  | cons l p ih =>
    have first : '\n' ∉ indent l.depth ++ l.text.toList := by
      rw [List.mem_append, not_or]
      exact ⟨not_mem_indent, h l List.mem_cons_self⟩
    have rest := ih fun m hm => h m (List.mem_cons_of_mem l hm)
    have written : l.written ++ p.flatMap PageLine.written =
        (indent l.depth ++ l.text.toList) ++ '\n' :: p.flatMap PageLine.written := by
      simp [PageLine.written, indent]
    have deeper : indent (depth + l.depth) = indent depth ++ indent l.depth := by
      simp [indent, Nat.mul_add, List.replicate_append_replicate]
    have cons : deepen depth (l :: p) = { l with depth := depth + l.depth } :: deepen depth p := rfl
    rw [List.flatMap_cons, written, indentFrom_append first, ← rest, cons, List.flatMap_cons]
    show indent (depth + l.depth) ++ l.text.toList ++ ['\n'] ++ _ = _
    rw [deeper]
    simp

theorem text_nil : text [] = "" := rfl

theorem text_line (text : String) (depth : Nat) :
    Page.text (deepen depth (line text)) = margin depth ++ text ++ "\n" := by
  apply String.toList_inj.1
  rw [Page.text, String.toList_ofList, String.toList_append, String.toList_append, toList_margin]
  simp [deepen, line, PageLine.written, indent]

end Page

namespace Writer

/-- The writing adds the page, at the depth of the writer, to what has been written, and does
nothing else. -/
def Puts (f : Writer → Writer) (p : Page) : Prop :=
  ∀ w, f w = ⟨w.text ++ (p.deepen w.depth).text, w.depth⟩

variable {f g : Writer → Writer} {p q : Page}

theorem puts_line (text : String) : Puts (line text) (.line text) := by
  intro w
  rw [line, Page.text_line]
  simp only [String.append_assoc]

theorem puts_keywordLine (kind : Kind) (text : String) :
    Puts (keywordLine kind text) (.keywordLine kind text) :=
  puts_line _

/-- What is written later comes after. -/
theorem Puts.then (hf : Puts f p) (hg : Puts g q) : Puts (fun w => g (f w)) (p ++ q) := by
  intro w
  show g (f w) = _
  rw [hf, hg, Page.deepen_append, Page.text_append, String.append_assoc]

theorem Puts.nested (hf : Puts f p) : Puts (nested f) p.nested := by
  intro w
  rw [Writer.nested, hf, Page.deepen_nested]
  rfl

theorem puts_all {write : α → Writer → Writer} {page : α → Page}
    (h : ∀ a, Puts (write a) (page a)) (as : List α) : Puts (all write as) (as.flatMap page) := by
  induction as with
  | nil =>
    intro w
    rw [List.flatMap_nil, Page.deepen_nil, Page.text_nil, String.append_empty]
    rfl
  | cons a as ih => exact (h a).then ih

theorem puts_toList {write : α → Writer → Writer} {page : α → Page}
    (h : ∀ a, Puts (write a) (page a)) (a : Option α) :
    Puts (all write a.toList) (.ofOption page a) := by
  have whole := puts_all h a.toList
  cases a with
  | none => exact whole
  | some a => rwa [Option.toList_some, List.flatMap_singleton] at whole

theorem Puts.within (hf : Puts f p) (depth : Nat) : Puts (within depth f) (p.deepen depth) := by
  induction depth with
  | zero => rwa [Page.deepen_zero]
  | succ depth ih =>
    have deeper := ih.nested
    rwa [Page.nested_eq_deepen, Page.deepen_deepen, Nat.add_comm] at deeper

/-- What is written at a depth is the text of the page with the margin in front of each line. -/
theorem Puts.eq_indented (hf : Puts f p) (h : p.OneLiners) (w : Writer) :
    f w = ⟨w.text ++ Text.indented (margin w.depth) p.text, w.depth⟩ := by
  rw [hf, Page.text_deepen h]

end Writer

theorem Comment.puts_write (c : Comment) : Puts c.write c.page :=
  puts_keywordLine _ _

theorem Description.puts_write (d : Description) : Puts d.write d.page :=
  puts_line _

theorem Table.puts_write (t : Table) : Puts t.write t.page := by
  have row : ∀ r : Row, Puts (Writer.line r.text) (Page.line r.text) := fun r => puts_line r.text
  exact (puts_all row t.rows).then (puts_all Comment.puts_write t.comments)

theorem DocString.puts_write (d : DocString) : Puts d.write d.page :=
  ((puts_keywordLine _ _).then (puts_all puts_line d.lines)).then (puts_line _)

theorem Argument.puts_write (a : Argument) : Puts a.write a.page := by
  cases a with
  | table t => exact t.puts_write
  | docString d => exact d.puts_write

theorem Step.puts_write (s : Step) : Puts s.write s.page :=
  (puts_keywordLine _ _).then
    ((puts_all Comment.puts_write s.comments).then
      (puts_toList Argument.puts_write s.argument)).nested

theorem Header.puts_write (h : Header) (kind : Kind) {content : Writer → Writer} {parts : Page}
    (below : Puts content parts) : Puts (h.write kind content) (h.page kind parts) :=
  (puts_keywordLine _ _).then
    (((puts_all Comment.puts_write h.comments).then
      (puts_all Description.puts_write h.descriptions)).then below).nested

theorem Background.puts_write (b : Background) : Puts b.write b.page :=
  b.header.puts_write _ (puts_all Step.puts_write b.steps)

theorem Scenario.puts_write (s : Scenario) : Puts s.write s.page :=
  s.header.puts_write _ (puts_all Step.puts_write s.steps)

theorem Examples.puts_write (e : Examples) : Puts e.write e.page :=
  e.header.puts_write _ (puts_toList Table.puts_write e.table)

theorem Outline.puts_write (o : Outline) : Puts o.write o.page :=
  o.header.puts_write _ ((puts_all Step.puts_write o.steps).then o.examples.puts_write)

theorem Rule.puts_write (r : Rule) : Puts r.write r.page :=
  r.header.puts_write _ (puts_all Scenario.puts_write r.scenarios)

theorem Item.puts_write (i : Item) : Puts i.write i.page := by
  cases i with
  | scenario s => exact s.puts_write
  | rule r => exact r.puts_write
  | outline o => exact o.puts_write

theorem Feature.puts_write (f : Feature) : Puts f.write f.page :=
  f.header.puts_write _
    ((puts_toList Background.puts_write f.background).then (puts_all Item.puts_write f.items))

theorem Document.puts_write (d : Document) : Puts d.write d.page :=
  (puts_all Comment.puts_write d.comments).then d.feature.puts_write

/-- What an element writes is its page. -/
theorem Element.puts_write (e : Element) : Puts e.write e.page := by
  cases e with
  | feature f => exact f.puts_write
  | background b => exact b.puts_write
  | rule r => exact r.puts_write
  | scenario s => exact s.puts_write
  | outline o => exact o.puts_write
  | examples e => exact e.puts_write
  | step s => exact s.puts_write
  | table t => exact t.puts_write
  | docString d => exact d.puts_write
  | comment c => exact c.puts_write
  | description d => exact d.puts_write

end Gherkin
