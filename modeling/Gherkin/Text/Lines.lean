/-!
# The lines of a text

A line ends at a line feed; a carriage return right before that line feed belongs to the line end.
Text after the last line feed is a line of its own, and keeps a carriage return at its end. An
empty rest is no line, so a final line feed adds none.
-/

namespace Gherkin.Text

/-- A line whose characters come last first, without the carriage return of its line end. -/
def endedLine : List Char → List Char
  | '\r' :: cs => cs.reverse
  | cs => cs.reverse

/-- The lines of `cs`, where `begun` holds the characters already read of the first line, last
first. -/
def linesFrom (begun : List Char) : List Char → List (List Char)
  | [] => if begun.isEmpty then [] else [begun.reverse]
  | c :: cs => if c = '\n' then endedLine begun :: linesFrom [] cs else linesFrom (c :: begun) cs

/-- The lines of a text, without their line ends. -/
def lines (s : String) : List String :=
  (linesFrom [] s.toList).map .ofList

end Gherkin.Text
