import Gherkin.Outline
import Mathlib.Data.List.Forall2
import Mathlib.Data.List.TakeWhile

/-!
# Texts woven of literals and names

A text with placeholders is a weave: literals, and between each two of them a name in angle
brackets. A weave is proper if its names may stand in brackets and no name starts in a literal.
Every text is one proper weave and no other (`proper_iff`), and `names`, `hasNames` and `substitute`
read that weave: they list its names, tell whether it has any, and put values in their places.
-/

namespace Gherkin.Placeholder

/-- What may stand in brackets. -/
structure IsName (n : List Char) : Prop where
  nonempty : n ≠ []
  unclosed : '>' ∉ n
  first : ∀ c ∈ n.head?, Text.isBlank c = false

/-- A name starts right here, in a text after `<`. -/
def StartsName (cs : List Char) : Prop :=
  ∃ c rest, cs = c :: rest ∧ c ≠ '>' ∧ Text.isBlank c = false ∧ '>' ∈ rest

/-- No name starts in the literal, which stands in front of `after`: a name could start in the
literal and be closed only behind it. -/
def IsLiteral (literal after : List Char) : Prop :=
  ∀ before rest, literal = before ++ '<' :: rest → ¬ StartsName (rest ++ after)

/-- Literals, and between each two of them a name. -/
inductive Weave where
  | last (literal : List Char)
  | more (literal name : List Char) (rest : Weave)
  deriving DecidableEq, Repr

namespace Weave

/-- The text with its names in brackets. -/
def text : Weave → List Char
  | last l => l
  | more l n w => l ++ '<' :: (n ++ '>' :: w.text)

/-- The names from left to right. -/
def names : Weave → List (List Char)
  | last _ => []
  | more _ n w => n :: w.names

/-- The text with values in place of the names, one for each. -/
def filled : Weave → List String → List Char
  | more l _ w, v :: vs => l ++ v.toList ++ w.filled vs
  | more l _ _, [] | last l, _ => l

/-- The brackets in the text are those of the names. -/
def Proper : Weave → Prop
  | last l => IsLiteral l []
  | more l n w => IsLiteral l ('<' :: (n ++ '>' :: w.text)) ∧ IsName n ∧ w.Proper

def tokens : Weave → List Token
  | last l => l.map .plain
  | more l n w => l.map .plain ++ .name n :: w.tokens

/-- The weave with one more character in front. -/
def prepend (c : Char) : Weave → Weave
  | last l => last (c :: l)
  | more l n w => more (c :: l) n w

/-- The weave of the tokens. -/
def ofTokens : List Token → Weave
  | [] => last []
  | .plain c :: ts => (ofTokens ts).prepend c
  | .name n :: ts => more [] n (ofTokens ts)

end Weave

variable {c : Char} {cs n rest after : List Char} {w : Weave}

/-! ## Names and literals -/

theorem IsName.startsName (h : IsName n) : StartsName (n ++ '>' :: rest) := by
  cases n with
  | nil => exact absurd rfl h.nonempty
  | cons c n =>
    refine ⟨c, n ++ '>' :: rest, rfl, ?_, h.first c rfl, by simp⟩
    rintro rfl
    exact h.unclosed List.mem_cons_self

/-- Where a name starts there is one, up to the next `>`. -/
theorem StartsName.exists_isName (h : StartsName cs) :
    ∃ n rest, IsName n ∧ cs = n ++ '>' :: rest := by
  obtain ⟨c, cs, rfl, opens, start, closed⟩ := h
  obtain ⟨n, rest, rfl, unclosed⟩ := List.eq_append_cons_of_mem closed
  refine ⟨c :: n, rest, ⟨List.cons_ne_nil c n, ?_, ?_⟩, rfl⟩
  · rw [List.mem_cons, not_or]
    exact ⟨opens.symm, unclosed⟩
  · rintro d ⟨⟩
    exact start

theorem nameAt?_of_isName (h : IsName n) : nameAt? (n ++ '>' :: rest) = some (n, rest) := by
  have before : ∀ c ∈ n, (c != '>') = true := by
    intro c hc
    rw [bne_iff_ne]
    rintro rfl
    exact h.unclosed hc
  have starts : StartsName (n ++ '>' :: rest) := h.startsName
  obtain ⟨c, cs, cut, opens, start, -⟩ := starts
  rw [cut, nameAt?, if_neg (by simp [opens, start]), ← cut,
    List.dropWhile_append_of_pos before, List.takeWhile_append_of_pos before]
  simp

theorem nameAt?_of_not_startsName (h : ¬ StartsName cs) : nameAt? cs = none := by
  cases cs with
  | nil => rfl
  | cons c cs =>
    by_cases start : c = '>' ∨ Text.isBlank c = true
    · simp [nameAt?, start]
    · rw [not_or, Bool.not_eq_true] at start
      have unclosed : ∀ d ∈ c :: cs, (d != '>') = true := by
        intro d hd
        rw [bne_iff_ne]
        rintro rfl
        rcases List.mem_cons.1 hd with rfl | hd
        · exact start.1 rfl
        · exact h ⟨c, cs, rfl, start.1, start.2, hd⟩
      rw [nameAt?, if_neg (by simp [start]), List.dropWhile_eq_nil_iff.2 unclosed]

theorem nameAt?_eq_none_iff : nameAt? cs = none ↔ ¬ StartsName cs := by
  refine ⟨?_, nameAt?_of_not_startsName⟩
  intro none start
  obtain ⟨n, rest, name, rfl⟩ := start.exists_isName
  rw [nameAt?_of_isName name] at none
  cases none

theorem nameAt?_eq_some_iff : nameAt? cs = some (n, rest) ↔ IsName n ∧ cs = n ++ '>' :: rest := by
  constructor
  · intro found
    by_cases start : StartsName cs
    · obtain ⟨m, after, name, rfl⟩ := start.exists_isName
      rw [nameAt?_of_isName name, Option.some.injEq, Prod.mk.injEq] at found
      obtain ⟨rfl, rfl⟩ := found
      exact ⟨name, rfl⟩
    · rw [nameAt?_of_not_startsName start] at found
      cases found
  · rintro ⟨name, rfl⟩
    exact nameAt?_of_isName name

theorem isLiteral_nil : IsLiteral [] after := by
  intro before rest h
  simp at h

theorem isLiteral_cons_iff :
    IsLiteral (c :: cs) after ↔ (c = '<' → ¬ StartsName (cs ++ after)) ∧ IsLiteral cs after := by
  constructor
  · intro h
    refine ⟨?_, fun before rest cut => h (c :: before) rest (by rw [cut]; rfl)⟩
    rintro rfl
    exact h [] cs rfl
  · rintro ⟨first, later⟩ before rest cut
    cases before with
    | nil =>
      obtain ⟨rfl, rfl⟩ := List.cons.inj cut
      exact first rfl
    | cons b before => exact later before rest (List.cons.inj cut).2

/-! ## Tokens -/

theorem tokens_of_isName (h : IsName n) :
    tokens ('<' :: (n ++ '>' :: rest)) = .name n :: tokens rest := by
  rw [tokens, if_pos rfl]
  -- the recursion carries a proof about its match, so the match is split and not rewritten
  split
  · next found =>
    rw [nameAt?_of_isName h] at found
    cases found
    rfl
  · next none =>
    rw [nameAt?_of_isName h] at none
    cases none

theorem tokens_of_plain (h : c = '<' → ¬ StartsName cs) :
    tokens (c :: cs) = .plain c :: tokens cs := by
  rw [tokens]
  split
  · next opens =>
    have none := nameAt?_of_not_startsName (h opens)
    split
    · next found =>
      rw [none] at found
      cases found
    · rfl
  · rfl

theorem tokens_append_of_isLiteral (h : IsLiteral cs after) :
    tokens (cs ++ after) = cs.map .plain ++ tokens after := by
  induction cs with
  | nil => rfl
  | cons c cs ih =>
    obtain ⟨first, later⟩ := isLiteral_cons_iff.1 h
    rw [List.cons_append, tokens_of_plain first, ih later]
    rfl

namespace Weave

theorem Proper.tokens_text (h : w.Proper) : Placeholder.tokens w.text = w.tokens := by
  induction w with
  | last l =>
    have only := tokens_append_of_isLiteral h
    rwa [List.append_nil, Placeholder.tokens, List.append_nil] at only
  | more l n w ih =>
    obtain ⟨literal, name, proper⟩ := h
    rw [text, tokens_append_of_isLiteral literal, tokens_of_isName name, ih proper, tokens]

theorem text_prepend : (w.prepend c).text = c :: w.text := by
  cases w <;> rfl

theorem Proper.prepend (h : w.Proper) (first : c = '<' → ¬ StartsName w.text) :
    (w.prepend c).Proper := by
  cases w with
  | last l => exact isLiteral_cons_iff.2 ⟨by simpa [text] using first, h⟩
  | more l n w => exact ⟨isLiteral_cons_iff.2 ⟨first, h.1⟩, h.2⟩

/-- A weave is told by its tokens, so a text has no more than one proper weave. -/
theorem ofTokens_tokens (w : Weave) : ofTokens w.tokens = w := by
  have plain : ∀ c (w : Weave), ofTokens w.tokens = w →
      ofTokens (w.prepend c).tokens = w.prepend c := by
    intro c w h
    cases w <;> exact congrArg (prepend c) h
  induction w with
  | last l =>
    induction l with
    | nil => rfl
    | cons c l ih => exact plain c (last l) ih
  | more l n w ih =>
    induction l with
    | nil => exact congrArg (more [] n) ih
    | cons c l ihl => exact plain c (more l n w) ihl

/-- The weave that is read in a text. -/
def of (cs : List Char) : Weave :=
  ofTokens (Placeholder.tokens cs)

/-- The weave that is read in a text is proper, and it is that text. -/
theorem proper_of (cs : List Char) : (of cs).Proper ∧ (of cs).text = cs := by
  rw [of]
  -- by the recursion of `tokens`: a name, a `<` that starts none, any other character
  fun_induction Placeholder.tokens cs with
  | case1 => exact ⟨isLiteral_nil, rfl⟩
  | case2 cs n rest found shorter ih =>
    obtain ⟨name, rfl⟩ := nameAt?_eq_some_iff.1 found
    exact ⟨⟨isLiteral_nil, name, ih.1⟩, by rw [ofTokens, text, ih.2, List.nil_append]⟩
  | case3 cs none ih =>
    refine ⟨ih.1.prepend fun _ => ?_, by rw [ofTokens, text_prepend, ih.2]⟩
    rw [ih.2]
    exact nameAt?_eq_none_iff.1 none
  | case4 c cs other ih =>
    exact ⟨ih.1.prepend fun opens => absurd opens other, by rw [ofTokens, text_prepend, ih.2]⟩

/-- A text is the weave that is read in it, and no other proper one. -/
theorem proper_iff {cs : List Char} : w.Proper ∧ w.text = cs ↔ w = of cs := by
  constructor
  · rintro ⟨proper, rfl⟩
    rw [of, proper.tokens_text, ofTokens_tokens]
  · rintro rfl
    exact proper_of cs

/-- The tokens of a text are those of its weave. -/
theorem tokens_of (cs : List Char) : (of cs).tokens = Placeholder.tokens cs := by
  obtain ⟨proper, same⟩ := proper_of cs
  rw [← proper.tokens_text, same]

/-! ## What is read of a weave -/

theorem filterMap_name?_tokens (w : Weave) : w.tokens.filterMap Token.name? = w.names := by
  have plain : ∀ l : List Char, (l.map Token.plain).filterMap Token.name? = [] := by
    intro l
    rw [List.filterMap_map, List.filterMap_eq_nil_iff]
    exact fun c _ => rfl
  induction w with
  | last l => exact plain l
  | more l n w ih => rw [tokens, List.filterMap_append, plain, List.filterMap_cons, names, ih]; rfl

theorem fill_append_plain (value? : String → Option String) (l : List Char) (ts : List Token) :
    fill value? (l.map .plain ++ ts) = (l ++ ·) <$> fill value? ts := by
  induction l with
  | nil => simp
  | cons c l ih =>
    rw [List.map_cons, List.cons_append, fill, ih]
    simp

/-- Each name has a value, and the values stand in the places of the names. -/
theorem fill_eq_ok_iff {value? : String → Option String} {cs : List Char} :
    fill value? w.tokens = .ok cs ↔
      ∃ vs, List.Forall₂ (fun n v => value? (.ofList n) = some v) w.names vs ∧
        cs = w.filled vs := by
  induction w generalizing cs with
  | last l =>
    have plain := fill_append_plain value? l []
    rw [List.append_nil] at plain
    simp [tokens, plain, fill, names, filled, eq_comm]
  | more l n w ih =>
    rw [tokens, fill_append_plain, fill]
    cases value : value? (.ofList n) with
    | none =>
      simp only [names, List.forall₂_cons_left_iff, value]
      simp
    | some v =>
      constructor
      · intro found
        cases rest : fill value? w.tokens with
        | error s => simp [rest] at found
        | ok ds =>
          obtain ⟨vs, values, rfl⟩ := ih.1 rest
          refine ⟨v :: vs, .cons value values, ?_⟩
          simp only [rest] at found
          cases found
          simp [filled]
      · rintro ⟨vs, values, rfl⟩
        cases values with
        | @cons _ u _ vs first values =>
          rw [value, Option.some.injEq] at first
          subst first
          simp [ih.2 ⟨vs, values, rfl⟩, filled]

/-- The first name without a value is the error. -/
theorem fill_eq_error_iff {value? : String → Option String} {s : String} :
    fill value? w.tokens = .error s ↔
      ∃ n, w.names.find? (fun n => (value? (.ofList n)).isNone) = some n ∧ s = .ofList n := by
  induction w with
  | last l =>
    have plain := fill_append_plain value? l []
    rw [List.append_nil] at plain
    simp [tokens, plain, fill, names]
  | more l n w ih =>
    rw [tokens, fill_append_plain, fill, names, List.find?_cons]
    cases value : value? (.ofList n) with
    | none => simp [eq_comm]
    | some v =>
      simp only [Option.isNone_some, ← ih]
      cases fill value? w.tokens <;> simp

end Weave

/-! ## Names and cells -/

theorem firsts_filter [BEq α] [LawfulBEq α] (p : α → Bool) (as : List α) :
    firsts (as.filter p) = (firsts as).filter p := by
  induction as with
  | nil => rfl
  | cons a as ih =>
    rw [firsts, List.filter_cons, List.filter_cons]
    split
    · rw [firsts, ih, List.filter_filter, List.filter_filter]
      simp only [Bool.and_comm]
    · next out =>
      rw [ih, List.filter_filter]
      refine List.filter_congr fun b _ => ?_
      by_cases same : b = a
      · simp [same, out]
      · simp [same]

theorem firsts_eq_eraseDups [BEq α] [LawfulBEq α] (as : List α) : firsts as = as.eraseDups := by
  induction len : as.length using Nat.strong_induction_on generalizing as with
  | _ k ih =>
    cases as with
    | nil => rfl
    | cons a as =>
      have less : (as.filter fun b => !b == a).length < k := by
        rw [← len]
        exact Nat.lt_succ_of_le (List.length_filter_le _ _)
      rw [firsts, List.eraseDups_cons, ← ih _ less _ rfl, firsts_filter]
      rfl

/-- The cell of a row under the first of the headers that is the name. -/
def cell? (headers row : List String) (n : List Char) : Option String :=
  (headers.idxOf? (.ofList n)).bind fun p => row[p]?

theorem cellUnder?_eq (headers row : List String) (n : List Char) :
    cellUnder? headers row (.ofList n) = cell? headers row n := by
  rw [cellUnder?, cell?]
  generalize String.ofList n = name
  induction headers generalizing row with
  | nil => rfl
  | cons h headers ih =>
    cases row with
    | nil => simp
    | cons v row =>
      rw [List.zip_cons_cons, List.lookup_cons, List.idxOf?_cons, ih]
      by_cases same : name = h
      · simp [same]
      · have other : (h == name) = false := by simpa using Ne.symm same
        have other' : (name == h) = false := by simpa using same
        cases headers.idxOf? name <;> simp [other, other']

/-! ## Functions of a text -/

variable {text : String}

theorem names_eq : names text = (Weave.of text.toList).names.eraseDups.map .ofList := by
  rw [names, ← Weave.tokens_of, Weave.filterMap_name?_tokens, firsts_eq_eraseDups]

theorem hasNames_iff : hasNames text = true ↔ 0 < (Weave.of text.toList).names.length := by
  rw [← Weave.filterMap_name?_tokens, Weave.tokens_of, List.length_pos_iff_exists_mem, hasNames,
    List.any_eq_true]
  simp only [List.mem_filterMap, Option.isSome_iff_exists]
  constructor
  · rintro ⟨t, ht, n, hn⟩
    exact ⟨n, t, ht, hn⟩
  · rintro ⟨n, t, ht, hn⟩
    exact ⟨t, ht, n, hn⟩

variable {headers row : List String} {line : Nat}

theorem substitute_eq_ok_iff {s : String} :
    substitute text headers row line = .ok s ↔
      ∃ vs, List.Forall₂ (fun n v => cell? headers row n = some v)
          (Weave.of text.toList).names vs ∧
        s = .ofList ((Weave.of text.toList).filled vs) := by
  simp only [← cellUnder?_eq]
  rw [substitute, ← Weave.tokens_of]
  constructor
  · intro found
    cases filled : fill (cellUnder? headers row) (Weave.of text.toList).tokens with
    | error n => simp [filled] at found
    | ok cs =>
      obtain ⟨vs, values, rfl⟩ := Weave.fill_eq_ok_iff.1 filled
      simp only [filled, Except.ok.injEq] at found
      exact ⟨vs, values, found.symm⟩
  · rintro ⟨vs, values, rfl⟩
    rw [Weave.fill_eq_ok_iff.2 ⟨vs, values, rfl⟩]

theorem substitute_eq_error_iff {e : FillError} :
    substitute text headers row line = .error e ↔
      ∃ n, (Weave.of text.toList).names.find? (fun n => (cell? headers row n).isNone) = some n ∧
        e = .unknownColumn (.ofList n) line headers := by
  simp only [← cellUnder?_eq]
  rw [substitute, ← Weave.tokens_of]
  constructor
  · intro found
    cases filled : fill (cellUnder? headers row) (Weave.of text.toList).tokens with
    | ok cs => simp [filled] at found
    | error s =>
      obtain ⟨n, first, rfl⟩ := Weave.fill_eq_error_iff.1 filled
      simp only [filled, Except.error.injEq] at found
      exact ⟨n, first, found.symm⟩
  · rintro ⟨n, first, rfl⟩
    rw [Weave.fill_eq_error_iff.2 ⟨n, first, rfl⟩]

/-- **Placeholders.** A text is one proper weave. Its names are those of the weave, each once; it
has names if the weave has; and to substitute is to put in place of each name of the weave its
cell, or to fail at the first name without one. -/
theorem woven (text : String) :
    ∃ w : Weave, (∀ w' : Weave, w'.Proper ∧ w'.text = text.toList ↔ w' = w) ∧
      names text = w.names.eraseDups.map .ofList ∧
      (hasNames text = true ↔ 0 < w.names.length) ∧
      ∀ headers row line,
        (∀ s, substitute text headers row line = .ok s ↔
          ∃ vs, List.Forall₂ (fun n v => cell? headers row n = some v) w.names vs ∧
            s = .ofList (w.filled vs)) ∧
        ∀ e, substitute text headers row line = .error e ↔
          ∃ n, w.names.find? (fun n => (cell? headers row n).isNone) = some n ∧
            e = .unknownColumn (.ofList n) line headers :=
  ⟨.of text.toList, fun _ => Weave.proper_iff, names_eq, hasNames_iff,
    fun _ _ _ => ⟨fun _ => substitute_eq_ok_iff, fun _ => substitute_eq_error_iff⟩⟩

end Gherkin.Placeholder
