import Gherkin.Proofs.Page.Written

/-!
# Lines with other white space around them

White space around a line is not part of it, nor is what a kind puts in front of its payload: the
payload of a line, with the lead of its kind in front and any white space around, is read as the
line again (`Line.read?_spaced`). So a line that is written on a page is read back at any depth.
-/

namespace Gherkin

open Text

namespace Text

variable {xs ys : List Char}

/-- A text begins as it does without the white space at its end, if anything is left of it. -/
theorem skipBlank_of_trimEnd (h : skipBlank (trimEnd xs) = trimEnd xs)
    (nonempty : trimEnd xs ≠ []) : skipBlank xs = xs := by
  obtain ⟨tail, whole⟩ := List.rdropWhile_prefix isBlank xs
  obtain ⟨c, cs, begins⟩ := List.exists_cons_of_ne_nil nonempty
  rw [begins] at h
  have same : xs = c :: (cs ++ tail) := by
    rw [← List.cons_append, ← begins]
    exact whole.symm
  rw [same]
  exact skipBlank_cons_of_not_blank (not_blank_of_skipBlank h)

/-- White space around a text is trimmed with it. -/
theorem trim_spaced {s u v : String} (before : isAllBlank u = true) (after : isAllBlank v = true) :
    trim (u ++ s ++ v).toList = trim s.toList := by
  have blank : ∀ {w : String}, isAllBlank w = true → ∀ c ∈ w.toList, isBlank c = true := by
    intro w all
    simpa [isAllBlank] using all
  rw [String.toList_append, String.toList_append, trim_append_of_blank_end (blank after),
    trim_append_of_blank (blank before)]

end Text

namespace Kind

variable {k : Kind} {cs p : List Char}

/-- Free text has no shape. -/
theorem ne_description_of_payload? (h : k.payload? cs = some p) : k ≠ .description := by
  rintro rfl
  cases h

/-- The payload of a text, with the lead of its kind in front, is trimmed to what is written. -/
theorem trim_lead (h : k.payload? cs = some p) (trimmed : trim cs = cs) :
    trim (k.lead.toList ++ p) = trimEnd (k.lead.toList ++ p) := by
  have again := payload?_lead h trimmed
  rw [trim, skipBlank_of_trimEnd (skipBlank_of_payload? again) (ne_nil_of_payload? again)]

/-- A kind carries on one line what a text of that shape carries, if this is one line. -/
theorem carries_of_payload? (h : k.payload? cs = some p) (trimmed : trim cs = cs)
    (oneLine : '\n' ∉ p) : k.Carries (.ofList p) := by
  have lead : ∀ j ∈ shaped, '\n' ∉ j.lead.toList := by decide
  have again := payload?_lead h trimmed
  refine ⟨_, ?_, ?_, by simpa using again⟩
  · exact trim_of_trimmed (skipBlank_of_payload? again) trimEnd_trimEnd
  · intro mem
    rcases List.mem_append.1 (mem_of_mem_trimEnd mem) with mem | mem
    · exact lead k (mem_shaped_of_payload? h) mem
    · exact oneLine mem

/-- Steps and headers carry one line. -/
theorem oneLine_of_payload? (h : k.payload? cs = some p)
    (kind : k.category = .step ∨ k.category = .container) : '\n' ∉ p := by
  rcases kind with step | header
  · cases k with
    | step s =>
      obtain ⟨c, rest, -, -, -, oneLine⟩ := stepPayload?_eq_some_iff.1 h
      exact oneLine
    | _ => cases step
  · rw [payload?_of_mem_headers (mem_headers_iff.2 header), headerPayload?_eq_some_iff] at h
    obtain ⟨after, rest, -, -, -, oneLine⟩ := h
    exact oneLine

end Kind

namespace Line

variable {raw : String} {n m : Nat} {l : Line} {u v : String}

/-- The line, as it is read from another text and under another number: free text is what it
carries, and any other line keeps its payload. -/
def on (l : Line) (raw : String) (number : Nat) : Line where
  kind := l.kind
  payload := if l.kind = .description then raw else l.payload
  number := number
  raw := raw

theorem shape_of_read? (h : read? raw n = some l) (kind : l.kind ≠ .description) :
    l.kind.payload? (trim raw.toList) = some l.payload.toList := by
  obtain ⟨-, -, shape | ⟨free, -⟩⟩ := read?_eq_some_iff.1 h
  · exact shape
  · exact absurd free kind

/-- Texts that are trimmed to the same are read alike. -/
theorem read?_of_trim (h : read? raw n = some l) {raw' : String}
    (same : trim raw'.toList = trim raw.toList) : read? raw' m = some (l.on raw' m) := by
  refine read?_eq_some_iff.2 ⟨rfl, rfl, ?_⟩
  obtain ⟨-, -, shape | ⟨free, -, nonempty, shapeless⟩⟩ := read?_eq_some_iff.1 h
  · left
    simpa only [on, if_neg (Kind.ne_description_of_payload? shape), same] using shape
  · right
    exact ⟨free, by simp [on, free], by rwa [same], by rwa [same]⟩

/-- The payload, with the lead of the kind in front and white space around, is read as the line. -/
theorem read?_lead (h : read? raw n = some l) (before : isAllBlank u = true)
    (after : isAllBlank v = true) :
    read? (u ++ (l.kind.lead ++ l.payload) ++ v) m =
      some (l.on (u ++ (l.kind.lead ++ l.payload) ++ v) m) := by
  by_cases free : l.kind = .description
  · refine read?_of_trim h ?_
    obtain ⟨-, -, shape | ⟨-, payload, -⟩⟩ := read?_eq_some_iff.1 h
    · exact absurd free (Kind.ne_description_of_payload? shape)
    · rw [trim_spaced before after, free, payload, Kind.lead, String.empty_append]
  · have shape := shape_of_read? h free
    have again : l.kind.payload? (trim (u ++ (l.kind.lead ++ l.payload) ++ v).toList) =
        some l.payload.toList := by
      rw [trim_spaced before after, String.toList_append, Kind.trim_lead shape trim_trim]
      exact Kind.payload?_lead shape trim_trim
    simpa [on, free] using read?_of_payload? (n := m) again

/-- The text of the page of one line. -/
theorem text_keywordLine (k : Kind) (s : String) (depth : Nat) :
    Page.text (Page.deepen depth (Page.keywordLine k s)) =
      .ofList (indent depth) ++ k.written s ++ "\n" := by
  rw [← String.toList_inj]
  simp [Page.text, Page.deepen, Page.keywordLine, Page.line, PageLine.written, indent]

/-- The text of the page of one line is read as that line. -/
theorem ofText_keywordLine {k : Kind} {s : String} (h : k.Carries s) (depth : Nat) :
    ofText (Page.text (Page.deepen depth (Page.keywordLine k s))) =
      [{ k.lineAt depth s with number := 1 }] := by
  have oneLiners : (Page.deepen depth (Page.keywordLine k s)).OneLiners := by
    intro l hl
    obtain ⟨m, hm, rfl⟩ := List.mem_map.1 hl
    exact Page.oneLiners_keywordLine h m hm
  have back : trimEnd (k.written s).toList = (k.written s).toList :=
    trimEnd_of_trim h.trim_written
  have raw := Page.raw_of_trimEnd depth back (Page.written_ne_nil h)
  have read := read?_written h (isBlank_of_mem_indent depth) 1
  rw [ofText, readAll, Page.lines_text oneLiners]
  simp only [Page.keywordLine, Page.line, Page.deepen, List.map_cons, List.map_nil, Nat.add_zero]
  rw [raw, readFrom, read]
  rfl

/-- **Canonical lines.** A line that is read is read as the same kind with the same payload from
that payload behind the lead of the kind, and from its own text, whatever white space is around
them; only free text carries all of its new text. Written on a page, at any depth, it is read back,
also among the lines of the page's text if it is one line, as steps and headers are in any case. -/
theorem read?_spaced (h : read? raw n = some l) :
    (∀ u v : String, isAllBlank u = true → isAllBlank v = true → ∀ m : Nat,
      read? (u ++ (l.kind.lead ++ l.payload) ++ v) m =
        some (l.on (u ++ (l.kind.lead ++ l.payload) ++ v) m) ∧
      read? (u ++ raw ++ v) m = some (l.on (u ++ raw ++ v) m)) ∧
    (l.kind ≠ .description → ∀ depth : Nat,
      let text := Page.text (Page.deepen depth (Page.keywordLine l.kind l.payload))
      (∀ m : Nat, read? text m = some ⟨l.kind, l.payload, m, text⟩) ∧
      (l.kind.category = .step ∨ l.kind.category = .container ∨ '\n' ∉ raw.toList →
        ofText text = [{ l.kind.lineAt depth l.payload with number := 1 }])) := by
  refine ⟨fun u v before after m => ⟨read?_lead h before after, ?_⟩, fun kind depth => ?_⟩
  · exact read?_of_trim h (trim_spaced before after)
  · have shape := shape_of_read? h kind
    have again := Kind.payload?_lead shape trim_trim
    refine ⟨fun m => ?_, fun oneLine => ofText_keywordLine ?_ depth⟩
    · have margin : isAllBlank (.ofList (indent depth)) = true := by
        simpa [isAllBlank] using isBlank_of_mem_indent depth
      have trimmed : trim (Page.text (Page.deepen depth
          (Page.keywordLine l.kind l.payload))).toList =
            trimEnd (l.kind.lead.toList ++ l.payload.toList) := by
        rw [text_keywordLine, trim_spaced margin (by decide), Kind.toList_written]
        exact trim_of_trimmed (Kind.skipBlank_of_payload? again) trimEnd_trimEnd
      rw [← trimmed] at again
      simpa using read?_of_payload? (n := m) again
    · have payload : '\n' ∉ l.payload.toList := by
        rw [← or_assoc] at oneLine
        rcases oneLine with kind | oneLine
        · exact Kind.oneLine_of_payload? shape kind
        · exact fun mem => oneLine (mem_of_mem_trim (Kind.mem_of_payload? shape mem))
      simpa using Kind.carries_of_payload? shape trim_trim payload

/-- A comment with a space more than its mark has after it. -/
def spacedComment : Line :=
  ⟨.comment, " a: b", 3, "\t#  a: b "⟩

theorem spacedComment_read?_spaced :
    read? "\t#  a: b " 3 = some spacedComment ∧
      read? "\n#  a: b\r\n" 7 = some ⟨.comment, " a: b", 7, "\n#  a: b\r\n"⟩ ∧
      ofText "    #  a: b\n" = [⟨.comment, " a: b", 1, "    #  a: b"⟩] := by
  have read : read? "\t#  a: b " 3 = some spacedComment := by decide +kernel
  obtain ⟨around, written⟩ := read?_spaced read
  refine ⟨read, (around "\n" "\r\n" (by decide) (by decide) 7).1, ?_⟩
  exact (written (by decide) 2).2 (.inr (.inr (by decide)))

end Line

end Gherkin
