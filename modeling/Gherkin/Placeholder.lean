import Gherkin.Text.Blank

/-!
# Placeholders

A text of an outline names columns of its examples in angle brackets. A name starts right after
`<` with a character that is neither `>` nor white space, and reaches to the next `>`; a `<` where
no name starts is a plain character. `tokens` cuts a text into plain characters and names, from
left to right; `names`, `hasNames` and `substitute` are functions of the tokens. A value that is
put in place of a name is not read again.
-/

namespace Gherkin

/-- A piece of a text with placeholders. -/
inductive Token where
  | plain (c : Char)
  | name (name : List Char)
  deriving DecidableEq, Repr

/-- The name that a token holds. -/
def Token.name? : Token → Option (List Char)
  | .plain _ => none
  | .name n => some n

namespace Placeholder

/-- The name that starts at the beginning of `cs`, a text after `<`, and what follows its `>`. -/
def nameAt? (cs : List Char) : Option (List Char × List Char) :=
  match cs with
  | [] => none
  | c :: _ =>
    if c = '>' || Text.isBlank c then none
    else match cs.dropWhile (· != '>') with
      | [] => none
      | _ :: rest => some (cs.takeWhile (· != '>'), rest)

theorem length_lt_of_nameAt? {cs name rest : List Char} (h : nameAt? cs = some (name, rest)) :
    rest.length < cs.length := by
  cases cs with
  | nil => simp [nameAt?] at h
  | cons c cs =>
    have hle := (List.dropWhile_sublist (l := c :: cs) (· != '>')).length_le
    simp only [nameAt?] at h
    split at h
    · simp at h
    · split at h
      · simp at h
      · next hd =>
        simp only [Option.some.injEq, Prod.mk.injEq] at h
        rw [hd, h.2, List.length_cons] at hle
        omega

/-- The tokens of a text. -/
def tokens : List Char → List Token
  | [] => []
  | c :: cs =>
    if c = '<' then
      match h : nameAt? cs with
      | some (name, rest) =>
        have := length_lt_of_nameAt? h
        .name name :: tokens rest
      | none => .plain c :: tokens cs
    else .plain c :: tokens cs
termination_by cs => cs.length
decreasing_by all_goals simp only [List.length_cons]; omega

/-- Keeps the first of equal members. -/
def firsts [BEq α] : List α → List α
  | [] => []
  | a :: as => a :: (firsts as).filter (· != a)

/-- The names in a text, in the order of their first use. -/
def names (text : String) : List String :=
  (firsts ((tokens text.toList).filterMap Token.name?)).map .ofList

/-- The text has a placeholder. -/
def hasNames (text : String) : Bool :=
  (tokens text.toList).any fun t => t.name?.isSome

/-- The value of a row under the first of the headers that is `name`. -/
def cellUnder? (headers row : List String) (name : String) : Option String :=
  (headers.zip row).lookup name

/-- Puts values in place of names; the first name without a value is the error. -/
def fill (value? : String → Option String) : List Token → Except String (List Char)
  | [] => .ok []
  | .plain c :: ts => (c :: ·) <$> fill value? ts
  | .name n :: ts =>
    match value? (.ofList n) with
    | some v => (v.toList ++ ·) <$> fill value? ts
    | none => .error (.ofList n)

end Placeholder

end Gherkin
