import Gherkin.Proofs.Line.Written

/-!
# Patterns of lines

The shapes of lines, said by how a text is put together (`Kind.Shape`) and not by how it is read.
`Kind.Matches` is the pattern of a step or a header as one matches it by search: white space may
fall on either side of a cut, and every cut leads to the same payload once that is trimmed
(`Kind.Matches.shape`). A trimmed text has one shape at most, so lines are read alike whatever the
order in which the shapes are tried (`Line.read?_exactly`).
-/

namespace Gherkin

open Text

namespace Kind

variable {k j : Kind} {cs p q : List Char}

/-- The text has the shape of the kind, and `p` is what it carries. -/
inductive Shape : (k : Kind) → (cs p : List Char) → Prop where
  | step {s : StepKeyword} {gap p : List Char} (gapped : gap ≠ [])
      (blank : ∀ c ∈ gap, isBlank c = true) (nonempty : p ≠ [])
      (begins : p.head?.all (!isBlank ·) = true) (oneLine : '\n' ∉ p) :
      Shape (.step s) (s.text.toList ++ gap ++ p) p
  | header {k : Kind} {front back p : List Char} (container : k.category = .container)
      (blank : ∀ c ∈ front ++ back, isBlank c = true) (begins : p.head?.all (!isBlank ·) = true)
      (oneLine : '\n' ∉ p) : Shape k (k.keyword.toList ++ front ++ ':' :: (back ++ p)) p
  | comment {rest : List Char} : Shape .comment ('#' :: rest) (trimEnd (dropSpace rest))
  | row {rest : List Char} : Shape .row ('|' :: rest) ('|' :: rest)
  | fence {f : Fence} {rest : List Char} : Shape (.fence f) (f.text.toList ++ rest) (trim rest)

/-- The pattern of a step or a header fits the text in such a way that it captures `q`, which may
have white space in front. -/
inductive Matches : (k : Kind) → (cs q : List Char) → Prop where
  | step {s : StepKeyword} {gap q : List Char} (gapped : gap ≠ [])
      (blank : ∀ c ∈ gap, isBlank c = true) (oneLine : '\n' ∉ q) :
      Matches (.step s) (s.text.toList ++ gap ++ q) q
  | header {k : Kind} {lead front back q : List Char} (container : k.category = .container)
      (blank : ∀ c ∈ lead ++ front ++ back, isBlank c = true) (oneLine : '\n' ∉ q) :
      Matches k (lead ++ (k.keyword.toList ++ front ++ ':' :: (back ++ q))) q

/-! ## Shapes are what is read -/

/-- A text that begins with no white space keeps all of it. -/
theorem skipBlank_of_begins (h : p.head?.all (!isBlank ·) = true) : skipBlank p = p := by
  cases p with
  | nil => rfl
  | cons c cs => exact skipBlank_cons_of_not_blank (by simpa using h)

/-- What is left after white space begins with none. -/
theorem begins_skipBlank (cs : List Char) : (skipBlank cs).head?.all (!isBlank ·) = true := by
  cases h : skipBlank cs with
  | nil => rfl
  | cons c ds => simp [not_blank_of_skipBlank h]

/-- The text of a header, with white space on both sides of the colon. -/
theorem headerPayload?_colon {front back : List Char}
    (blank : ∀ c ∈ front ++ back, isBlank c = true) (oneLine : '\n' ∉ p) :
    headerPayload? k (k.keyword.toList ++ front ++ ':' :: (back ++ p)) = some (skipBlank p) := by
  have before : ∀ c ∈ front, isBlank c = true := fun c hc => blank c (List.mem_append_left _ hc)
  have after : ∀ c ∈ back, isBlank c = true := fun c hc => blank c (List.mem_append_right _ hc)
  rw [headerPayload?_eq_some_iff]
  refine ⟨front ++ ':' :: (back ++ p), back ++ p, by simp, ?_, ?_, ?_⟩
  · rw [skipBlank_append_of_blank before]
    exact skipBlank_cons_of_not_blank (by decide)
  · rw [skipBlank_append_of_blank after]
  · exact fun mem => oneLine (mem_of_mem_skipBlank mem)

/-- The text of a step, with white space after its keyword. -/
theorem stepPayload?_gap {s : StepKeyword} {gap : List Char} (gapped : gap ≠ [])
    (blank : ∀ c ∈ gap, isBlank c = true) (oneLine : '\n' ∉ p) :
    stepPayload? s (s.text.toList ++ gap ++ p) = some (skipBlank p) := by
  obtain ⟨c, gap, rfl⟩ := List.exists_cons_of_ne_nil gapped
  rw [stepPayload?_eq_some_iff]
  refine ⟨c, gap ++ p, by simp, blank c List.mem_cons_self, ?_, ?_⟩
  · rw [skipBlank_append_of_blank fun d hd => blank d (List.mem_cons_of_mem c hd)]
  · exact fun mem => oneLine (mem_of_mem_skipBlank mem)

/-- A text is read by the shape it has. -/
theorem Shape.payload?_eq (h : k.Shape cs p) : k.payload? cs = some p := by
  cases h with
  | @step s _ _ gapped blank _ begins oneLine =>
    have read := stepPayload?_gap (s := s) gapped blank oneLine
    rwa [skipBlank_of_begins begins] at read
  | header container blank begins oneLine =>
    have read := headerPayload?_colon (k := k) blank oneLine
    rw [← payload?_of_mem_headers (mem_headers_iff.2 container)] at read
    rwa [skipBlank_of_begins begins] at read
  | comment => exact commentPayload?_eq_some_iff.2 ⟨_, rfl, rfl⟩
  | row => exact rowPayload?_eq_some_iff.2 ⟨⟨_, rfl⟩, rfl⟩
  | fence => exact fencePayload?_eq_some_iff.2 ⟨_, rfl, rfl⟩

/-- A trimmed text that is read has the shape. -/
theorem shape_of_payload? (h : k.payload? cs = some p) (trimmed : trim cs = cs) :
    k.Shape cs p := by
  have blankFront : ∀ xs : List Char, ∀ c ∈ xs.takeWhile isBlank, isBlank c = true := by
    intro xs c hc
    exact List.mem_takeWhile_imp hc
  by_cases header : k ∈ headers
  · rw [payload?_of_mem_headers header, headerPayload?_eq_some_iff] at h
    obtain ⟨after, rest, rfl, colon, rfl, oneLine⟩ := h
    have cut : k.keyword.toList ++ after =
        k.keyword.toList ++ after.takeWhile isBlank ++
          ':' :: (rest.takeWhile isBlank ++ skipBlank rest) := by
      rw [skipBlank, List.takeWhile_append_dropWhile, ← colon, List.append_assoc, skipBlank,
        List.takeWhile_append_dropWhile]
    rw [cut]
    refine .header (mem_headers_iff.1 header) ?_ (begins_skipBlank rest) oneLine
    intro c hc
    rcases List.mem_append.1 hc with hc | hc
    · exact blankFront after c hc
    · exact blankFront rest c hc
  · cases k with
    | step s =>
      obtain ⟨c, rest, rfl, blank, rfl, oneLine⟩ := stepPayload?_eq_some_iff.1 h
      have nonempty := skipBlank_ne_nil_of_suffix (trimEnd_of_trim trimmed) blank
      have cut : s.text.toList ++ c :: rest =
          s.text.toList ++ c :: rest.takeWhile isBlank ++ skipBlank rest := by
        simp [skipBlank]
      rw [cut]
      refine .step (by simp) ?_ nonempty (begins_skipBlank rest) oneLine
      intro d hd
      rcases List.mem_cons.1 hd with rfl | hd
      · exact blank
      · exact blankFront rest d hd
    | comment =>
      obtain ⟨rest, rfl, rfl⟩ := commentPayload?_eq_some_iff.1 h
      exact .comment
    | row =>
      obtain ⟨⟨rest, rfl⟩, rfl⟩ := rowPayload?_eq_some_iff.1 h
      exact .row
    | fence f =>
      obtain ⟨rest, rfl, rfl⟩ := fencePayload?_eq_some_iff.1 h
      exact .fence
    | description => cases h
    | _ => simp [mem_headers_iff, category] at header

/-- However a pattern fits a trimmed text, what it captures is the payload once it is trimmed. -/
theorem Matches.shape (h : k.Matches cs q) (trimmed : trim cs = cs) : k.Shape cs (trim q) := by
  have same : ∀ xs, cs = xs ++ q → trim q = skipBlank q := by
    rintro xs rfl
    exact trimEnd_skipBlank_of_suffix (trimEnd_of_trim trimmed)
  refine shape_of_payload? ?_ trimmed
  cases h with
  | step gapped blank oneLine =>
    rw [same _ rfl]
    exact stepPayload?_gap gapped blank oneLine
  | @header _ lead front rear _ container blank oneLine =>
    have nothing : lead = [] := by
      cases lead with
      | nil => rfl
      | cons c lead =>
        have front := skipBlank_of_trim trimmed
        rw [List.cons_append] at front
        have first : isBlank c = true := blank c (by simp)
        rw [not_blank_of_skipBlank front] at first
        cases first
    subst nothing
    rw [same (k.keyword.toList ++ front ++ ':' :: rear) (by simp),
      payload?_of_mem_headers (mem_headers_iff.2 container)]
    exact headerPayload?_colon blank oneLine

/-- A text has one shape at most, and carries one payload. -/
theorem Shape.unique (h : k.Shape cs p) (h' : j.Shape cs q) : k = j ∧ p = q := by
  have first := h.payload?_eq
  have second := h'.payload?_eq
  obtain rfl := payload?_unique (mem_shaped_of_payload? first) (mem_shaped_of_payload? second)
    first second
  rw [first, Option.some.injEq] at second
  exact ⟨rfl, second⟩

end Kind

namespace Line

/-- Reads a line by the first shape in `order` that it has. -/
def readIn? (order : List Kind) (raw : String) (number : Nat) : Option Line :=
  let cs := trim raw.toList
  if cs.isEmpty then none
  else match Kind.shapeIn? order cs with
    | some (kind, payload) => some ⟨kind, .ofList payload, number, raw⟩
    | none => some ⟨.description, raw, number, raw⟩

theorem readIn?_eq {order : List Kind} (h : order.Perm Kind.shaped) (raw : String) (n : Nat) :
    readIn? order raw n = read? raw n := by
  have same : Kind.shapeIn? order (trim raw.toList) = Kind.ofShape? (trim raw.toList) := by
    ext ⟨k, p⟩
    rw [Kind.shapeIn?_eq_some_iff, Kind.ofShape?_eq_some_iff, h.mem_iff]
  rw [readIn?, same]
  rfl

/-- **Classification.** A blank line is none. Any other line has one shape at most; it is read as
the kind of that shape with what the shape carries, or as free text if it has none. A step or a
header is found however its pattern is matched, and the order in which the shapes are tried makes
no difference. -/
theorem read?_exactly (raw : String) (n : Nat) :
    (read? raw n = none ↔ trim raw.toList = []) ∧
    (∀ (k j : Kind) (p q : List Char),
      k.Shape (trim raw.toList) p → j.Shape (trim raw.toList) q → k = j ∧ p = q) ∧
    (∀ (k : Kind) (p : List Char),
      k.Shape (trim raw.toList) p → read? raw n = some ⟨k, .ofList p, n, raw⟩) ∧
    (trim raw.toList ≠ [] → (∀ (k : Kind) (p : List Char), ¬ k.Shape (trim raw.toList) p) →
      read? raw n = some ⟨.description, raw, n, raw⟩) ∧
    (∀ (k : Kind) (q : List Char),
      k.Matches (trim raw.toList) q → k.Shape (trim raw.toList) (trim q)) ∧
    ∀ order : List Kind, order.Perm Kind.shaped → readIn? order raw n = read? raw n := by
  refine ⟨?_, ?_, ?_, ?_, ?_, ?_⟩
  · constructor
    · intro none
      by_contra nonempty
      obtain ⟨l, hl⟩ := exists_read? nonempty n
      rw [none] at hl
      cases hl
    · intro blank
      simp [read?, blank]
  · exact fun k j p q h h' => h.unique h'
  · exact fun k p h => read?_of_payload? h.payload?_eq
  · intro nonempty shapeless
    refine read?_of_no_shape nonempty fun k _ => ?_
    cases read : k.payload? (trim raw.toList) with
    | none => rfl
    | some p => exact absurd (Kind.shape_of_payload? read trim_trim) (shapeless k p)
  · exact fun k q h => h.shape trim_trim
  · exact fun order h => readIn?_eq h raw n

end Line

end Gherkin
