import Gherkin.Proofs.Line.Written
import Gherkin.Proofs.Page.Lines

/-!
# Written pages

The lines that pages of single elements become when they are read: a line of some kind with its
payload, a line of free text, or a line between two fences.
-/

namespace Gherkin

open Text

/-- The line of the kind that is read where it was written at the depth, with no number. -/
def Kind.lineAt (k : Kind) (depth : Nat) (s : String) : Line :=
  ⟨k, s, 0, .ofList (indent depth ++ (k.written s).toList)⟩

@[simp] theorem Kind.lineAt_kind (k : Kind) (depth : Nat) (s : String) :
    (k.lineAt depth s).kind = k := rfl

@[simp] theorem Kind.lineAt_payload (k : Kind) (depth : Nat) (s : String) :
    (k.lineAt depth s).payload = s := rfl

/-- The text may stand on a line of its own between two fences: it is one line, not blank, and no
fence. -/
structure Quotable (s : String) : Prop where
  oneLine : '\n' ∉ s.toList
  nonempty : trim s.toList ≠ []
  noFence : ∀ f p, (Kind.fence f).payload? (trim s.toList) ≠ some p

/-- The text is one line of free text. -/
structure Free (s : String) : Prop where
  oneLine : '\n' ∉ s.toList
  nonempty : trim s.toList ≠ []
  shapeless : ∀ k ∈ Kind.shaped, k.payload? (trim s.toList) = none

namespace Text

variable {cs : List Char}

/-- A text without white space at its end has no carriage return there. -/
theorem chomp_of_trimEnd (h : trimEnd cs = cs) : chomp cs = cs := by
  rcases chomp_eq_self_or cs with ⟨same, -⟩ | cut
  · exact same
  · rw [cut] at h
    have ends : trimEnd ['\r'] = ['\r'] := trimEnd_of_suffix h (by simp)
    cases ends

/-- Trimming drops a carriage return at the end as well. -/
theorem trim_chomp (cs : List Char) : trim (chomp cs) = trim cs := by
  rcases chomp_eq_self_or cs with ⟨same, -⟩ | cut
  · rw [same]
  · have blank : ∀ c ∈ ['\r'], isBlank c = true := List.forall_mem_singleton.2 rfl
    conv_rhs => rw [cut, trim_append_of_blank_end blank]

/-- A margin that was written in front of a text is dropped again. -/
theorem dropMargin_indent (depth : Nat) (cs : List Char) :
    dropMargin (2 * depth) (indent depth ++ cs) = cs := by
  have dropped : dropMargin (indent depth).length (indent depth ++ cs) = cs :=
    dropMargin_append_of_blank (isBlank_of_mem_indent depth) 0
  rwa [indent, List.length_replicate] at dropped

/-- The margin of a line that begins with no white space is what was written in front. -/
theorem margin_indent {depth : Nat} {c : Char} (h : isBlank c = false) :
    margin (indent depth ++ c :: cs) = 2 * depth := by
  have stops : margin (c :: cs) = 0 := by simp [margin, h]
  rw [margin_append_of_blank (isBlank_of_mem_indent depth), stops, indent, List.length_replicate,
    Nat.add_zero]

end Text

namespace Page

variable {k : Kind} {s : String} {depth : Nat}

/-- The line of a page that carries a text, where trimming the text's end changes nothing. -/
theorem raw_of_trimEnd (depth : Nat) {text : String} (h : trimEnd text.toList = text.toList)
    (nonempty : text.toList ≠ []) :
    (⟨depth, text⟩ : PageLine).raw = .ofList (indent depth ++ text.toList) := by
  rw [PageLine.raw, chomp_append nonempty, chomp_of_trimEnd h]

theorem written_ne_nil (h : k.Carries s) : (k.written s).toList ≠ [] :=
  Kind.ne_nil_of_payload? h.payload?_written

/-- A line of some kind is read back as it was written. -/
theorem lines_keywordLine (h : k.Carries s) :
    lines (deepen depth (keywordLine k s)) = [k.lineAt depth s] := by
  have back : trimEnd (k.written s).toList = (k.written s).toList := by
    rw [← h.trim_written, trimEnd_trim]
  have raw := raw_of_trimEnd depth back (written_ne_nil h)
  have read := Line.read?_written h (isBlank_of_mem_indent depth) 0
  simp only [keywordLine, line, deepen, List.map_cons, List.map_nil, lines, Nat.add_zero]
  rw [List.filterMap_cons, raw, read]
  rfl

theorem oneLiners_keywordLine (h : k.Carries s) : (keywordLine k s).OneLiners := by
  intro l hl
  rw [List.mem_singleton.1 hl]
  exact h.oneLine_written

/-- A row is written as it is. -/
theorem line_row {text : String} (h : Kind.row.Carries text) :
    line text = keywordLine .row text := by
  have whole := h.payload?_written
  obtain ⟨-, same⟩ := Kind.rowPayload?_eq_some_iff.1 whole
  have unchanged : Kind.row.written text = text := String.toList_inj.1 same.symm
  rw [keywordLine, unchanged]

/-- A closing fence is one that carries nothing. -/
theorem carries_fence (f : Fence) : (Kind.fence f).Carries "" := by
  refine ⟨f.text.toList, ?_, ?_, ?_⟩ <;> cases f <;> decide

theorem line_fence (f : Fence) : line f.text = keywordLine (.fence f) "" := by
  cases f <;> rfl

/-- A line of free text is read as such, below the margin it was written at. -/
theorem lines_free {text : String} (h : Free text) :
    lines (deepen depth (line (trimmed text))) =
      [⟨.description, .ofList (indent depth ++ trim text.toList), 0,
        .ofList (indent depth ++ trim text.toList)⟩] := by
  have same : (trimmed text).toList = trim text.toList := toList_trimmed text
  have raw : (⟨depth, trimmed text⟩ : PageLine).raw =
      .ofList (indent depth ++ trim text.toList) := by
    rw [← same]
    refine raw_of_trimEnd depth ?_ ?_ <;> rw [same]
    · exact trimEnd_trim
    · exact h.nonempty
  have trimmed : trim (String.ofList (indent depth ++ trim text.toList)).toList =
      trim text.toList := by
    rw [String.toList_ofList, trim_append_of_blank (isBlank_of_mem_indent depth), trim_trim]
  have read := Line.read?_of_no_shape (n := 0) (by rw [trimmed]; exact h.nonempty)
    (by rw [trimmed]; exact h.shapeless)
  simp only [line, deepen, List.map_cons, List.map_nil, lines, Nat.add_zero]
  rw [List.filterMap_cons, raw, read]
  rfl

theorem oneLiners_free {text : String} (h : Free text) : (line (trimmed text)).OneLiners := by
  intro l hl
  rw [List.mem_singleton.1 hl]
  show '\n' ∉ (trimmed text).toList
  rw [toList_trimmed]
  intro mem
  exact h.oneLine (mem_of_mem_trim mem)

/-- A line of a DocString is read as some line that is no fence. -/
theorem lines_quotable (depth : Nat) (h : Quotable s) : ∃ l, lines (deepen depth (line s)) = [l] ∧
    (∀ f, l.kind ≠ .fence f) ∧ l.raw = .ofList (indent depth ++ chomp s.toList) := by
  have nonempty : s.toList ≠ [] := by
    intro empty
    exact h.nonempty (by rw [empty]; rfl)
  have raw : (⟨depth, s⟩ : PageLine).raw = .ofList (indent depth ++ chomp s.toList) := by
    rw [PageLine.raw, chomp_append nonempty]
  have same : trim (String.ofList (indent depth ++ chomp s.toList)).toList = trim s.toList := by
    rw [String.toList_ofList, trim_append_of_blank (isBlank_of_mem_indent depth), trim_chomp]
  obtain ⟨l, hl⟩ := Line.exists_read? (by rw [same]; exact h.nonempty) 0
  refine ⟨l, ?_, ?_, (Line.read?_number hl).2⟩
  · simp only [line, deepen, List.map_cons, List.map_nil, lines, Nat.add_zero]
    rw [List.filterMap_cons, raw, hl]
    rfl
  · intro f hf
    obtain ⟨-, -, shape | ⟨free, -⟩⟩ := Line.read?_eq_some_iff.1 hl
    · rw [same, hf] at shape
      exact h.noFence f _ shape
    · rw [hf] at free
      cases free

end Page

end Gherkin
