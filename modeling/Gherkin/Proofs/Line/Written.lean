import Gherkin.Proofs.Line.Shapes

/-!
# Written lines

What a line carries is written as the line again: the line that `Kind.written` gives has the shape
of the kind and the same payload (`Kind.Carries.payload?_written`), at any margin. So a line that
was read can be written and read back (`Line.read?_written`).
-/

namespace Gherkin

open Text

namespace Text

variable {c : Char} {cs xs ys : List Char}

theorem trimEnd_eq_nil_of_skipBlank (h : skipBlank cs = []) : trimEnd cs = [] := by
  have blank := List.dropWhile_eq_nil_iff.1 h
  exact List.rdropWhile_eq_nil_iff.2 blank

/-- What follows white space is a suffix. -/
theorem exists_append_skipBlank (cs : List Char) : ∃ xs, cs = xs ++ skipBlank cs :=
  ⟨cs.takeWhile isBlank, (List.takeWhile_append_dropWhile).symm⟩

/-- A text and what it carries, with one space between them if it carries something. -/
theorem trimEnd_space_append (front : trimEnd xs = xs) (back : trimEnd ys = ys) :
    trimEnd (xs ++ ' ' :: ys) = if ys = [] then xs else xs ++ ' ' :: ys := by
  split
  · next h =>
    subst h
    rw [trimEnd_append, if_pos (by rfl), front]
  · next h =>
    have space : xs ++ ' ' :: ys = (xs ++ [' ']) ++ ys := by simp
    rw [space, trimEnd_append_of_ne_nil (by rwa [back]), back]

/-- What follows white space at the end of a trimmed text is trimmed. -/
theorem trimEnd_skipBlank_of_suffix (h : trimEnd (xs ++ ys) = xs ++ ys) :
    trimEnd (skipBlank ys) = skipBlank ys := by
  by_cases empty : skipBlank ys = []
  · rw [empty]
    rfl
  · obtain ⟨zs, hzs⟩ := exists_append_skipBlank ys
    rw [hzs, ← List.append_assoc] at h
    exact trimEnd_of_suffix h empty

/-- White space within a trimmed text has something after it. -/
theorem skipBlank_ne_nil_of_suffix (h : trimEnd (xs ++ c :: ys) = xs ++ c :: ys)
    (blank : isBlank c = true) : skipBlank ys ≠ [] := by
  intro empty
  have gap : trimEnd (c :: ys) = c :: ys := trimEnd_of_suffix h (by simp)
  have all : skipBlank (c :: ys) = [] := by
    rw [skipBlank, List.dropWhile_cons_of_pos blank]
    exact empty
  rw [trimEnd_eq_nil_of_skipBlank all] at gap
  cases gap

end Text

namespace Kind

variable {k : Kind} {s : String} {cs p : List Char} {c : Char}

/-- A line of the kind may carry the text. -/
def Carries (k : Kind) (s : String) : Prop :=
  ∃ cs, trim cs = cs ∧ '\n' ∉ cs ∧ k.payload? cs = some s.toList

theorem toList_written (k : Kind) (s : String) :
    (k.written s).toList = trimEnd (k.lead.toList ++ s.toList) := by
  simp [written, toList_trimmedEnd]

/-- The payload of a text is made of its characters. -/
theorem mem_of_payload? (h : k.payload? cs = some p) (mem : c ∈ p) : c ∈ cs := by
  by_cases header : k ∈ headers
  · rw [payload?_of_mem_headers header, headerPayload?_eq_some_iff] at h
    obtain ⟨after, rest, rfl, colon, rfl, -⟩ := h
    have inside : c ∈ skipBlank after := by
      rw [colon]
      exact List.mem_cons_of_mem _ (mem_of_mem_skipBlank mem)
    exact List.mem_append_right _ (mem_of_mem_skipBlank inside)
  · cases k with
    | step s =>
      obtain ⟨d, rest, rfl, -, rfl, -⟩ := stepPayload?_eq_some_iff.1 h
      exact List.mem_append_right _ (List.mem_cons_of_mem _ (mem_of_mem_skipBlank mem))
    | comment =>
      obtain ⟨rest, rfl, rfl⟩ := commentPayload?_eq_some_iff.1 h
      exact List.mem_cons_of_mem _ (mem_of_mem_dropSpace (mem_of_mem_trimEnd mem))
    | row =>
      obtain ⟨-, rfl⟩ := rowPayload?_eq_some_iff.1 h
      exact mem
    | fence f =>
      obtain ⟨rest, rfl, rfl⟩ := fencePayload?_eq_some_iff.1 h
      exact List.mem_append_right _ (mem_of_mem_trim mem)
    | description => cases h
    | _ => simp [mem_headers_iff, category] at header

/-- The leads of headers. -/
theorem lead_of_mem_headers (h : k ∈ headers) :
    k.lead.toList = k.keyword.toList ++ [':', ' '] := by
  rw [mem_headers_iff] at h
  cases k <;> simp_all [category, lead]

theorem trimEnd_keyword (h : k ∈ shaped) : trimEnd k.keyword.toList = k.keyword.toList := by
  revert h
  revert k
  decide

theorem trimEnd_keyword_colon :
    trimEnd (k.keyword.toList ++ [':']) = k.keyword.toList ++ [':'] := by
  rw [trimEnd_append_of_ne_nil (by decide)]
  rfl

/-! ## Reading back, shape by shape -/

theorem stepPayload?_written {a : StepKeyword} (h : stepPayload? a cs = some p)
    (trimmed : trim cs = cs) :
    stepPayload? a (trimEnd ((Kind.step a).lead.toList ++ p)) = some p := by
  obtain ⟨c, rest, rfl, blank, rfl, oneLine⟩ := stepPayload?_eq_some_iff.1 h
  have back := trimEnd_of_trim trimmed
  have nonempty : skipBlank rest ≠ [] := skipBlank_ne_nil_of_suffix back blank
  have front : trimEnd a.text.toList = a.text.toList := by
    exact trimEnd_keyword (k := .step a) (mem_shaped (by simp))
  have same : trimEnd (skipBlank rest) = skipBlank rest := by
    have suffix : trimEnd (a.text.toList ++ [c] ++ rest) = a.text.toList ++ [c] ++ rest := by
      simpa using back
    exact trimEnd_skipBlank_of_suffix suffix
  have lead : (Kind.step a).lead.toList ++ skipBlank rest =
      a.text.toList ++ ' ' :: skipBlank rest := by
    simp [Kind.lead, keyword]
  rw [lead, trimEnd_space_append front same, if_neg nonempty, stepPayload?_eq_some_iff]
  exact ⟨' ', skipBlank rest, rfl, by decide, skipBlank_skipBlank.symm, oneLine⟩

theorem headerPayload?_written (header : k ∈ headers) (h : headerPayload? k cs = some p)
    (trimmed : trim cs = cs) :
    headerPayload? k (trimEnd (k.lead.toList ++ p)) = some p := by
  obtain ⟨after, rest, rfl, colon, rfl, oneLine⟩ := headerPayload?_eq_some_iff.1 h
  have back := trimEnd_of_trim trimmed
  have same : trimEnd (skipBlank rest) = skipBlank rest := by
    obtain ⟨gap, hgap⟩ := exists_append_skipBlank after
    rw [hgap, colon] at back
    have longer : k.keyword.toList ++ (gap ++ ':' :: rest) =
        (k.keyword.toList ++ gap ++ [':']) ++ rest := by simp
    rw [longer] at back
    exact trimEnd_skipBlank_of_suffix back
  have lead : k.lead.toList ++ skipBlank rest =
      (k.keyword.toList ++ [':']) ++ ' ' :: skipBlank rest := by
    simp [lead_of_mem_headers header]
  rw [lead, trimEnd_space_append trimEnd_keyword_colon same, headerPayload?_eq_some_iff]
  have colonStays : ∀ ds, skipBlank (':' :: ds) = ':' :: ds := by
    intro ds
    exact skipBlank_cons_of_not_blank (by decide)
  split
  · next empty => exact ⟨[':'], [], rfl, rfl, empty, oneLine⟩
  · refine ⟨':' :: ' ' :: skipBlank rest, ' ' :: skipBlank rest, by simp, colonStays _, ?_, oneLine⟩
    exact skipBlank_skipBlank.symm

theorem commentPayload?_written (h : commentPayload? cs = some p) :
    commentPayload? (trimEnd (Kind.comment.lead.toList ++ p)) = some p := by
  obtain ⟨rest, rfl, rfl⟩ := commentPayload?_eq_some_iff.1 h
  have lead : Kind.comment.lead.toList ++ trimEnd (dropSpace rest) =
      ['#'] ++ ' ' :: trimEnd (dropSpace rest) := rfl
  rw [lead, trimEnd_space_append (by decide) trimEnd_trimEnd, commentPayload?_eq_some_iff]
  split
  · next empty => exact ⟨[], rfl, empty⟩
  · exact ⟨' ' :: trimEnd (dropSpace rest), rfl, trimEnd_trimEnd.symm⟩

theorem rowPayload?_written (h : rowPayload? cs = some p) (trimmed : trim cs = cs) :
    rowPayload? (trimEnd (Kind.row.lead.toList ++ p)) = some p := by
  obtain ⟨⟨rest, rfl⟩, rfl⟩ := rowPayload?_eq_some_iff.1 h
  have back : trimEnd (Kind.row.lead.toList ++ '|' :: rest) = '|' :: rest := trimEnd_of_trim trimmed
  rw [back]
  exact h

theorem fencePayload?_written {f : Fence} (h : fencePayload? f cs = some p) :
    fencePayload? f (trimEnd ((Kind.fence f).lead.toList ++ p)) = some p := by
  obtain ⟨rest, rfl, rfl⟩ := fencePayload?_eq_some_iff.1 h
  have front : trimEnd f.text.toList = f.text.toList := by
    exact trimEnd_keyword (k := .fence f) (mem_shaped (by simp))
  have lead : (Kind.fence f).lead.toList ++ trim rest = f.text.toList ++ ' ' :: trim rest := by
    simp [Kind.lead, keyword]
  rw [lead, trimEnd_space_append front trimEnd_trim, fencePayload?_eq_some_iff]
  split
  · next empty => exact ⟨[], by simp, empty⟩
  · refine ⟨' ' :: trim rest, rfl, ?_⟩
    have blank : ∀ c ∈ [' '], isBlank c = true := List.forall_mem_singleton.2 rfl
    have space : trim ([' '] ++ trim rest) = trim (trim rest) := trim_append_of_blank blank
    rw [List.singleton_append] at space
    rw [space, trim_trim]

/-- What a text with the shape of a kind carries, written as a line of that kind, has the shape
again and carries the same. -/
theorem payload?_lead (h : k.payload? cs = some p) (trimmed : trim cs = cs) :
    k.payload? (trimEnd (k.lead.toList ++ p)) = some p := by
  by_cases header : k ∈ headers
  · rw [payload?_of_mem_headers header] at h ⊢
    exact headerPayload?_written header h trimmed
  · cases k with
    | step a => exact stepPayload?_written h trimmed
    | comment => exact commentPayload?_written h
    | row => exact rowPayload?_written h trimmed
    | fence f => exact fencePayload?_written h
    | description => cases h
    | _ => simp [mem_headers_iff, category] at header

/-- A text with a shape has no white space in front. -/
theorem skipBlank_of_payload? (h : k.payload? cs = some p) : skipBlank cs = cs := by
  have begins : ∀ j ∈ shaped, j.keyword.toList.head?.any (fun c => !isBlank c) = true := by
    decide
  have first := begins k (mem_shaped_of_payload? h)
  obtain ⟨rest, rfl⟩ := exists_keyword_append h
  cases hk : k.keyword.toList with
  | nil => simp [hk] at first
  | cons c cs =>
    rw [List.cons_append]
    exact skipBlank_cons_of_not_blank (by simpa [hk] using first)

namespace Carries

/-- A line that is written has the shape of its kind, and carries what was written. -/
theorem payload?_written (h : k.Carries s) : k.payload? (k.written s).toList = some s.toList := by
  obtain ⟨cs, trimmed, -, hs⟩ := h
  rw [toList_written]
  exact payload?_lead hs trimmed

/-- A line that is written has no white space at its ends. -/
theorem trim_written (h : k.Carries s) : trim (k.written s).toList = (k.written s).toList := by
  refine trim_of_trimmed (skipBlank_of_payload? h.payload?_written) ?_
  rw [toList_written, trimEnd_trimEnd]

/-- A line that is written is one line. -/
theorem oneLine_written (h : k.Carries s) : '\n' ∉ (k.written s).toList := by
  obtain ⟨cs, -, oneLine, hs⟩ := h
  have lead : ∀ j ∈ .description :: shaped, '\n' ∉ j.lead.toList := by
    decide
  have shaped : k ∈ .description :: shaped := by
    exact List.mem_cons_of_mem _ (mem_shaped_of_payload? hs)
  rw [toList_written]
  intro mem
  rcases List.mem_append.1 (mem_of_mem_trimEnd mem) with mem | mem
  · exact lead k shaped mem
  · exact oneLine (mem_of_payload? hs mem)

end Carries

end Kind

namespace Line

variable {raw : String} {n : Nat} {l : Line}

/-- A line that was read carries its payload, free text aside. -/
theorem carries_of_read? (h : read? raw n = some l) (oneLine : '\n' ∉ raw.toList)
    (kind : l.kind ≠ .description) : l.kind.Carries l.payload := by
  obtain ⟨-, -, shape | ⟨free, -⟩⟩ := read?_eq_some_iff.1 h
  · exact ⟨trim raw.toList, trim_trim, fun mem => oneLine (mem_of_mem_trim mem), shape⟩
  · exact absurd free kind

/-- What a line of some kind may carry is read back from the line that is written for it, at any
margin. -/
theorem read?_written {k : Kind} {s : String} (h : k.Carries s) {margin : List Char}
    (blank : ∀ c ∈ margin, isBlank c = true) (n : Nat) :
    read? (.ofList (margin ++ (k.written s).toList)) n =
      some ⟨k, s, n, .ofList (margin ++ (k.written s).toList)⟩ := by
  have shape : k.payload? (trim (String.ofList (margin ++ (k.written s).toList)).toList) =
      some s.toList := by
    rw [String.toList_ofList, trim_append_of_blank blank, h.trim_written]
    exact h.payload?_written
  simpa using read?_of_payload? (n := n) shape

end Line

end Gherkin
