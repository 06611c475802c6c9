import Gherkin.Text.Blank

/-!
# Cells of a row

A row is a text between bars. Inside it `\|` stands for a bar, `\\` for a backslash and `\n` for a
line feed; a backslash before anything else stands for itself. Cells lose the white space at their
ends. What follows the last bar is a cell only if it is not blank.

`escape` writes a cell so that `cells` reads it back.
-/

namespace Gherkin.Text

/-- The cells of what follows the first bar, where `begun` holds the characters already read of
the first cell, last first. -/
def cellsFrom (begun : List Char) : List Char → List (List Char)
  | [] => if (trim begun.reverse).isEmpty then [] else [trim begun.reverse]
  | '\\' :: '|' :: cs => cellsFrom ('|' :: begun) cs
  | '\\' :: '\\' :: cs => cellsFrom ('\\' :: begun) cs
  | '\\' :: 'n' :: cs => cellsFrom ('\n' :: begun) cs
  | '\\' :: c :: cs => cellsFrom (c :: '\\' :: begun) cs
  | '|' :: cs => trim begun.reverse :: cellsFrom [] cs
  | c :: cs => cellsFrom (c :: begun) cs

/-- The cells of a row; the bar in front of the first cell may be missing. -/
def cells (row : String) : List String :=
  let body := match trim row.toList with
    | '|' :: cs => cs
    | _ => row.toList
  (cellsFrom [] body).map .ofList

/-- A cell as it is written in a row. -/
def escape : List Char → List Char
  | [] => []
  | '|' :: cs => '\\' :: '|' :: escape cs
  | '\\' :: cs => '\\' :: '\\' :: escape cs
  | '\n' :: cs => '\\' :: 'n' :: escape cs
  | c :: cs => c :: escape cs

end Gherkin.Text
