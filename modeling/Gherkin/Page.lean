import Gherkin.Kind

/-!
# Pages

A page is a list of lines with their depths. Its text has two spaces a level in front of each line
and a line feed after it. Nesting a page makes each line one level deeper, so the depth of an
element is decided by what it is put into, not by the element.
-/

namespace Gherkin

/-- A line at a depth. -/
structure PageLine where
  depth : Nat
  text : String
  deriving DecidableEq, Repr

/-- Lines at their depths. -/
abbrev Page := List PageLine

namespace PageLine

/-- The line one level deeper. -/
def nest (l : PageLine) : PageLine :=
  { l with depth := l.depth + 1 }

/-- The line as it is written, with its line feed. -/
def written (l : PageLine) : List Char :=
  List.replicate (2 * l.depth) ' ' ++ l.text.toList ++ ['\n']

end PageLine

namespace Page

/-- The page of one line. -/
def line (text : String) : Page :=
  [⟨0, text⟩]

/-- The page of one line of the kind that carries `text`. -/
def keywordLine (kind : Kind) (text : String) : Page :=
  line (kind.written text)

/-- The page one level deeper. -/
def nested (p : Page) : Page :=
  p.map PageLine.nest

/-- The text of the page. -/
def text (p : Page) : String :=
  .ofList (p.flatMap PageLine.written)

@[simp] theorem nested_append (p q : Page) : nested (p ++ q) = nested p ++ nested q := by
  simp [nested]

theorem text_append (p q : Page) : text (p ++ q) = text p ++ text q := by
  apply String.toList_inj.1
  simp [text]

end Page

end Gherkin
