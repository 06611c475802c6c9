import Gherkin.Line
import Gherkin.Proofs.Text.Trim

/-!
# Shapes of lines

A text has at most one shape: two keywords that both stand at its beginning are equal, or one goes
on where the other needs a colon (`Kind.payload?_unique`). So the order in which the shapes are
tried does not matter, and a line is of a kind if and only if it has the shape of the kind
(`Line.read?_eq_some_iff`).
-/

namespace Gherkin

namespace Text

variable {cs p : List Char}

theorem oneLine?_eq_some_iff : oneLine? cs = some p ↔ p = cs ∧ '\n' ∉ cs := by
  by_cases h : '\n' ∈ cs <;> simp [oneLine?, h, eq_comm]

theorem afterGap?_eq_some_iff :
    afterGap? cs = some p ↔ ∃ c rest, cs = c :: rest ∧ isBlank c = true ∧ p = skipBlank rest := by
  cases cs with
  | nil => simp [afterGap?]
  | cons c rest =>
    by_cases h : isBlank c = true
    · simp only [afterGap?, h, if_true, Option.some.injEq]
      constructor
      · rintro rfl
        exact ⟨c, rest, rfl, h, rfl⟩
      · rintro ⟨c', rest', same, -, rfl⟩
        cases same
        rfl
    · simp only [afterGap?, h]
      constructor
      · intro none
        cases none
      · rintro ⟨c', rest', same, blank, -⟩
        cases same
        exact absurd blank h

end Text

open Text

namespace Kind

variable {k j : Kind} {cs p q : List Char}

/-! ## The shape of each kind -/

theorem stepPayload?_eq_some_iff {s : StepKeyword} :
    stepPayload? s cs = some p ↔ ∃ c rest, cs = s.text.toList ++ c :: rest ∧ isBlank c = true ∧
      p = skipBlank rest ∧ '\n' ∉ p := by
  simp only [stepPayload?, bind, Option.bind_eq_some_iff, after?_eq_some_iff,
    afterGap?_eq_some_iff, oneLine?_eq_some_iff]
  constructor
  · rintro ⟨_, rfl, _, ⟨c, rest, rfl, blank, rfl⟩, rfl, oneLine⟩
    exact ⟨c, rest, rfl, blank, rfl, oneLine⟩
  · rintro ⟨c, rest, rfl, blank, rfl, oneLine⟩
    exact ⟨_, rfl, _, ⟨c, rest, rfl, blank, rfl⟩, rfl, oneLine⟩

theorem headerPayload?_eq_some_iff :
    headerPayload? k cs = some p ↔ ∃ after rest, cs = k.keyword.toList ++ after ∧
      skipBlank after = ':' :: rest ∧ p = skipBlank rest ∧ '\n' ∉ p := by
  simp only [headerPayload?, bind, Option.bind_eq_some_iff, after?_eq_some_iff,
    oneLine?_eq_some_iff, List.cons_append, List.nil_append]
  constructor
  · rintro ⟨after, rfl, rest, colon, rfl, oneLine⟩
    exact ⟨after, rest, rfl, colon, rfl, oneLine⟩
  · rintro ⟨after, rest, rfl, colon, rfl, oneLine⟩
    exact ⟨after, rfl, rest, colon, rfl, oneLine⟩

/-- What follows the mark of a comment, less one space. -/
def dropSpace : List Char → List Char
  | ' ' :: cs => cs
  | cs => cs

theorem mem_of_mem_dropSpace {c : Char} (h : c ∈ dropSpace cs) : c ∈ cs := by
  unfold dropSpace at h
  split at h
  · exact List.mem_cons_of_mem _ h
  · exact h

theorem commentPayload?_eq_some_iff :
    commentPayload? cs = some p ↔ ∃ rest, cs = '#' :: rest ∧ p = trimEnd (dropSpace rest) := by
  have marked : ∀ rest, commentPayload? ('#' :: rest) = some (trimEnd (dropSpace rest)) := by
    intro rest
    simp only [commentPayload?, after?, if_true]
    split
    · next found =>
      cases found
      rfl
    · next other found =>
      cases found
      rw [dropSpace]
      intro cs hcs
      exact other cs (by rw [hcs])
    · next found => cases found
  constructor
  · intro h
    cases ha : after? ['#'] cs with
    | none => simp [commentPayload?, ha] at h
    | some rest =>
      obtain rfl : cs = '#' :: rest := after?_eq_some_iff.1 ha
      rw [marked, Option.some.injEq] at h
      exact ⟨rest, rfl, h.symm⟩
  · rintro ⟨rest, rfl, rfl⟩
    exact marked rest

theorem rowPayload?_eq_some_iff :
    rowPayload? cs = some p ↔ (∃ rest, cs = '|' :: rest) ∧ p = cs := by
  simp only [rowPayload?, Option.map_eq_some_iff, after?_eq_some_iff, List.cons_append,
    List.nil_append]
  constructor
  · rintro ⟨rest, rfl, rfl⟩
    exact ⟨⟨rest, rfl⟩, rfl⟩
  · rintro ⟨⟨rest, rfl⟩, rfl⟩
    exact ⟨rest, rfl, rfl⟩

theorem fencePayload?_eq_some_iff {f : Fence} :
    fencePayload? f cs = some p ↔ ∃ rest, cs = f.text.toList ++ rest ∧ p = trim rest := by
  simp only [fencePayload?, Option.map_eq_some_iff, after?_eq_some_iff]
  constructor
  · rintro ⟨rest, rfl, rfl⟩
    exact ⟨rest, rfl, rfl⟩
  · rintro ⟨rest, rfl, rfl⟩
    exact ⟨rest, rfl, rfl⟩

/-! ## One shape to a text -/

/-- Every kind but that of free text has a shape. -/
theorem mem_shaped (h : k ≠ .description) : k ∈ shaped := by
  rcases k with (_ | _ | _ | _ | _ | _) | _ | _ | _ | (_ | _) | (_ | _) | (_ | _) | _ | _ |
    (_ | _) | _
  all_goals first
    | decide
    | exact absurd rfl h

theorem payload?_of_mem_headers (h : k ∈ headers) : k.payload? cs = headerPayload? k cs := by
  cases k <;> first
    | rfl
    | simp [headers] at h

theorem mem_headers_iff : k ∈ headers ↔ k.category = .container := by
  rcases k with _ | _ | _ | _ | (_ | _) | (_ | _) | (_ | _) | _ | _ | _ | _ <;>
    simp [headers, category]

/-- A text with the shape of a kind begins with its keyword. -/
theorem exists_keyword_append (h : k.payload? cs = some p) :
    ∃ rest, cs = k.keyword.toList ++ rest := by
  by_cases header : k ∈ headers
  · rw [payload?_of_mem_headers header, headerPayload?_eq_some_iff] at h
    obtain ⟨after, -, rfl, -⟩ := h
    exact ⟨after, rfl⟩
  · cases k with
    | step s =>
      obtain ⟨c, rest, rfl, -⟩ := stepPayload?_eq_some_iff.1 h
      exact ⟨c :: rest, rfl⟩
    | comment =>
      obtain ⟨rest, rfl, -⟩ := commentPayload?_eq_some_iff.1 h
      exact ⟨rest, rfl⟩
    | row =>
      obtain ⟨⟨rest, rfl⟩, -⟩ := rowPayload?_eq_some_iff.1 h
      exact ⟨rest, rfl⟩
    | fence f =>
      obtain ⟨rest, rfl, -⟩ := fencePayload?_eq_some_iff.1 h
      exact ⟨rest, rfl⟩
    | description => cases h
    | _ => simp [mem_headers_iff, category] at header

/-- A keyword that begins another one is that of a header, and the other one does not go on with a
colon. -/
theorem keyword_prefix_keyword (hk : k ∈ shaped) (hj : j ∈ shaped)
    (h : k.keyword.toList.isPrefixOf j.keyword.toList = true) : k = j ∨ k ∈ headers ∧
      (skipBlank (j.keyword.toList.drop k.keyword.toList.length)).head?.any (· ≠ ':') = true := by
  revert h
  revert j
  revert k
  decide +kernel

/-- A text that goes on with another keyword has not the shape of a header. -/
theorem keyword_eq_of_begins (hk : k ∈ shaped) (hj : j ∈ shaped) (h : k.payload? cs = some p)
    (h' : j.payload? cs = some q) (begins : k.keyword.toList <+: j.keyword.toList) : k = j := by
  rcases keyword_prefix_keyword hk hj (List.isPrefixOf_iff_prefix.2 begins) with
    same | ⟨header, other⟩
  · exact same
  · exfalso
    obtain ⟨more, hmore⟩ := begins
    obtain ⟨rest, rfl⟩ := exists_keyword_append h'
    rw [payload?_of_mem_headers header, headerPayload?_eq_some_iff] at h
    obtain ⟨after, tail, cut, colon, -⟩ := h
    rw [← hmore, List.append_assoc] at cut
    rw [← List.append_cancel_left cut] at colon
    rw [← hmore, List.drop_left] at other
    cases hs : skipBlank more with
    | nil => simp [hs] at other
    | cons c cs =>
      have longer : skipBlank (more ++ rest) = c :: cs ++ rest := by
        rw [skipBlank, List.dropWhile_append, ← skipBlank, hs]
        rfl
      rw [longer] at colon
      simp only [List.cons_append, List.cons.injEq] at colon
      simp [hs, colon.1] at other

/-- A text has one shape at most. -/
theorem payload?_unique (hk : k ∈ shaped) (hj : j ∈ shaped) (h : k.payload? cs = some p)
    (h' : j.payload? cs = some q) : k = j := by
  obtain ⟨rest, hrest⟩ := exists_keyword_append h
  obtain ⟨rest', hrest'⟩ := exists_keyword_append h'
  have first : k.keyword.toList <+: cs := ⟨rest, hrest.symm⟩
  have second : j.keyword.toList <+: cs := ⟨rest', hrest'.symm⟩
  rcases List.prefix_or_prefix_of_prefix first second with shorter | longer
  · exact keyword_eq_of_begins hk hj h h' shorter
  · exact (keyword_eq_of_begins hj hk h' h longer).symm

/-- The kind and payload of a text by the first shape in `order` that it has. -/
def shapeIn? (order : List Kind) (cs : List Char) : Option (Kind × List Char) :=
  order.findSome? fun k => (k.payload? cs).map (k, ·)

theorem mem_shaped_of_payload? (h : k.payload? cs = some p) : k ∈ shaped := by
  apply mem_shaped
  rintro rfl
  cases h

/-- The order in which shapes are tried does not matter. -/
theorem shapeIn?_eq_some_iff {order : List Kind} :
    shapeIn? order cs = some (k, p) ↔ k ∈ order ∧ k.payload? cs = some p := by
  constructor
  · intro h
    obtain ⟨j, hj, found⟩ := List.exists_of_findSome?_eq_some h
    obtain ⟨q, hq, same⟩ := Option.map_eq_some_iff.1 found
    cases same
    exact ⟨hj, hq⟩
  · rintro ⟨hk, hp⟩
    cases found : shapeIn? order cs with
    | none =>
      have shapeless := List.findSome?_eq_none_iff.1 found k hk
      simp [hp] at shapeless
    | some jq =>
      obtain ⟨j, -, taken⟩ := List.exists_of_findSome?_eq_some found
      obtain ⟨q, hq, rfl⟩ := Option.map_eq_some_iff.1 taken
      obtain rfl := payload?_unique (mem_shaped_of_payload? hp) (mem_shaped_of_payload? hq) hp hq
      rw [hp] at hq
      cases hq
      rfl

theorem ofShape?_eq_some_iff :
    ofShape? cs = some (k, p) ↔ k ∈ shaped ∧ k.payload? cs = some p :=
  shapeIn?_eq_some_iff

theorem ofShape?_eq_none_iff : ofShape? cs = none ↔ ∀ k ∈ shaped, k.payload? cs = none := by
  simp [ofShape?, List.findSome?_eq_none_iff]

/-- A text with a shape is not empty. -/
theorem ne_nil_of_payload? (h : k.payload? cs = some p) : cs ≠ [] := by
  have nonempty : ∀ j ∈ shaped, j.keyword.toList ≠ [] := by decide
  obtain ⟨rest, rfl⟩ := exists_keyword_append h
  simp [nonempty k (mem_shaped_of_payload? h)]

end Kind

namespace Line

variable {raw : String} {n : Nat} {k : Kind} {p : List Char}

theorem read?_of_payload? (h : k.payload? (trim raw.toList) = some p) :
    read? raw n = some ⟨k, .ofList p, n, raw⟩ := by
  have shape := Kind.ofShape?_eq_some_iff.2 ⟨Kind.mem_shaped_of_payload? h, h⟩
  have nonempty := Kind.ne_nil_of_payload? h
  simp [read?, shape, nonempty]

theorem read?_of_no_shape (nonempty : trim raw.toList ≠ [])
    (h : ∀ k ∈ Kind.shaped, k.payload? (trim raw.toList) = none) :
    read? raw n = some ⟨.description, raw, n, raw⟩ := by
  have shapeless := Kind.ofShape?_eq_none_iff.2 h
  simp [read?, shapeless, nonempty]

/-- A line that is not blank is read. -/
theorem exists_read? (nonempty : trim raw.toList ≠ []) (n : Nat) : ∃ l, read? raw n = some l := by
  cases shape : Kind.ofShape? (trim raw.toList) with
  | some kp => exact ⟨_, read?_of_payload? (Kind.ofShape?_eq_some_iff.1 shape).2⟩
  | none => exact ⟨_, read?_of_no_shape nonempty (Kind.ofShape?_eq_none_iff.1 shape)⟩

/-- The lines that are read, by their kinds. -/
theorem read?_eq_some_iff {l : Line} : read? raw n = some l ↔ l.number = n ∧ l.raw = raw ∧
    (l.kind.payload? (trim raw.toList) = some l.payload.toList ∨
      l.kind = .description ∧ l.payload = raw ∧ trim raw.toList ≠ [] ∧
        ∀ k ∈ Kind.shaped, k.payload? (trim raw.toList) = none) := by
  constructor
  · intro h
    by_cases nonempty : trim raw.toList = []
    · simp [read?, nonempty] at h
    cases shape : Kind.ofShape? (trim raw.toList) with
    | some kp =>
      obtain ⟨k, p⟩ := kp
      obtain ⟨-, hp⟩ := Kind.ofShape?_eq_some_iff.1 shape
      rw [read?_of_payload? hp, Option.some.injEq] at h
      subst h
      exact ⟨rfl, rfl, .inl (by simpa using hp)⟩
    | none =>
      have shapeless := Kind.ofShape?_eq_none_iff.1 shape
      rw [read?_of_no_shape nonempty shapeless, Option.some.injEq] at h
      subst h
      exact ⟨rfl, rfl, .inr ⟨rfl, rfl, nonempty, shapeless⟩⟩
  · rcases l with ⟨kind, payload, number, text⟩
    rintro ⟨rfl, rfl, shape | ⟨hk, hp, nonempty, shapeless⟩⟩
    · simpa using read?_of_payload? shape
    · obtain rfl : kind = .description := hk
      obtain rfl : payload = text := hp
      exact read?_of_no_shape nonempty shapeless

end Line

end Gherkin
