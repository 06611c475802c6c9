/-!
# White space

White space is the Unicode property `White_Space`: twenty-five characters, in ten ranges.
Everything here works on the list of a text's characters; `trimmed` is the form for `String`.
`trim` drops white space at both ends, `margin` counts how much of it stands in front.
-/

namespace Gherkin.Text

/-- The characters of the property `White_Space`, as closed ranges of code points. -/
def blankRanges : List (Nat × Nat) :=
  [(0x09, 0x0D), (0x20, 0x20), (0x85, 0x85), (0xA0, 0xA0), (0x1680, 0x1680), (0x2000, 0x200A),
   (0x2028, 0x2029), (0x202F, 0x202F), (0x205F, 0x205F), (0x3000, 0x3000)]

/-- The character is white space. -/
def isBlank (c : Char) : Bool :=
  blankRanges.any fun r => decide (r.1 ≤ c.toNat) && decide (c.toNat ≤ r.2)

/-- What is left after the white space in front. -/
def skipBlank (cs : List Char) : List Char :=
  cs.dropWhile isBlank

/-- The text without the white space at its end. -/
def trimEnd (cs : List Char) : List Char :=
  (skipBlank cs.reverse).reverse

/-- The text without white space at either end. -/
def trim (cs : List Char) : List Char :=
  trimEnd (skipBlank cs)

/-- How many white-space characters stand in front of the text. -/
def margin (cs : List Char) : Nat :=
  (cs.takeWhile isBlank).length

/-- Drops white space in front, but no more than `width` characters of it. -/
def dropMargin : Nat → List Char → List Char
  | 0, cs => cs
  | _ + 1, [] => []
  | n + 1, c :: cs => if isBlank c then dropMargin n cs else c :: cs

/-- A string without white space at either end. -/
def trimmed (s : String) : String :=
  .ofList (trim s.toList)

/-- A string without white space at its end. -/
def trimmedEnd (s : String) : String :=
  .ofList (trimEnd s.toList)

/-- A string of white space only, the empty one included. -/
def isAllBlank (s : String) : Bool :=
  s.toList.all isBlank

theorem isBlank_iff {c : Char} :
    isBlank c = true ↔ ∃ r ∈ blankRanges, r.1 ≤ c.toNat ∧ c.toNat ≤ r.2 := by
  simp [isBlank, List.any_eq_true]

@[simp] theorem trim_nil : trim [] = [] := rfl

theorem dropMargin_eq_drop (width : Nat) (cs : List Char) :
    dropMargin width cs = cs.drop (min width (margin cs)) := by
  induction width generalizing cs with
  | zero => simp [dropMargin]
  | succ n ih =>
    cases cs with
    | nil => simp [dropMargin]
    | cons c cs =>
      by_cases h : isBlank c
      · simp [dropMargin, margin, h, ih, Nat.add_min_add_right]
      · simp [dropMargin, margin, h]

end Gherkin.Text
