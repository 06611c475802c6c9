import Gherkin.Proofs.Listing.Scenarios
import Gherkin.Proofs.Listing.Steps

/-!
# Lines of listings

A plain listing has a line for each entry, spelled out here (`StepEntry.LineOf`,
`ScenarioEntry.LineOf`). The entries that a listing has from a file are entries of that file, the
expanded ones as well, and their lines name it.
-/

namespace Gherkin

/-- The entry is one of the file. Its line has the place, the keyword, for a conjunction what it
means, the text, and the placeholders if there are any. -/
structure StepEntry.LineOf (e : StepEntry) (file : String) : Prop where
  source : e.file = file
  written : e.written = file ++ ":" ++ toString e.line ++ ": " ++ e.keyword ++
    (if e.keyword ∈ ["And", "But", "*"] then " (" ++ e.resolved ++ ")" else "") ++ " " ++ e.text ++
    (if e.parameters = [] then "" else " [" ++ String.intercalate ", " e.parameters ++ "]") ++ "\n"

/-- The entry is one of the file. Its line has the place, the rule if there is one, the keyword and
the name, for a filled outline the row counted from 1 in 64 bits, and the number of steps. -/
structure ScenarioEntry.LineOf (e : ScenarioEntry) (file : String) : Prop where
  source : e.file = file
  written : e.written = file ++ ":" ++ toString e.line ++ ": " ++
    (e.rule.elim "" fun rule => "Rule: " ++ rule ++ " / ") ++ e.keyword ++ ": " ++ e.name ++
    (e.exampleRow.elim "" fun row =>
      " [example " ++ toString ((row + 1) % 18446744073709551616) ++ "]") ++
    " (" ++ toString e.steps ++ " steps)\n"

/-! ## Steps -/

namespace StepEntry

variable {e : StepEntry} {file : String}

/-- The keyword column shows what a conjunction means. -/
theorem keywordColumn_eq {k : StepKeyword} (h : e.keyword = k.text) : e.keywordColumn =
    e.keyword ++ if e.keyword ∈ ["And", "But", "*"] then " (" ++ e.resolved ++ ")" else "" := by
  have read : StepKeyword.ofText? k.text = some k := by cases k <;> decide
  have conjunction : k.isConjunction = true ↔ k.text ∈ ["And", "But", "*"] := by
    cases k <;> decide
  simp only [keywordColumn, h, read, Option.any_some, conjunction]
  split <;> simp [String.append_assoc]

theorem lineOf_of_shows {s : Step} (h : e.Shows file s) : e.LineOf file := by
  refine ⟨h.file, ?_⟩
  rw [written, h.file, keywordColumn_eq h.keyword]
  simp only [List.isEmpty_iff, String.append_assoc]

end StepEntry

theorem Feature.stepEntries_lineOf (f : Feature) (file : String) :
    ∀ e ∈ f.stepEntries file, e.LineOf file := by
  intro e he
  obtain ⟨s, -, shows⟩ := exists_of_mem_right (f.forall₂_stepEntries file) he
  exact StepEntry.lineOf_of_shows shows

/-! ## Scenarios -/

namespace ScenarioEntry

variable {e : ScenarioEntry} {file : String}

theorem lineOf_iff : e.LineOf file ↔ e.file = file := by
  refine ⟨LineOf.source, fun h => ⟨h, ?_⟩⟩
  rcases e with ⟨own, line, keyword, name, _ | rule, steps, _ | row⟩ <;> cases h <;>
    simp [written, title, Kind.lead, Kind.keyword, UInt64.size, String.append_assoc]

end ScenarioEntry

/-- The entries that take the place of an entry are entries of the same file. -/
theorem Scene.Expands.file {sc : Scene} {e e' : ScenarioEntry} {es : List ScenarioEntry}
    (h : sc.Expands e es) (mem : e' ∈ es) : e'.file = e.file := by
  cases h with
  | scenario => rw [List.mem_singleton.1 mem]
  | @outline o _ _ length rows =>
    obtain ⟨j, found⟩ := List.mem_iff_getElem?.1 mem
    obtain ⟨bound, -⟩ := List.getElem?_eq_some_iff.1 found
    rw [length] at bound
    obtain ⟨name, -, place⟩ := rows j _ (List.getElem?_eq_getElem bound)
    rw [found, Option.some.injEq] at place
    rw [place]

namespace Feature

variable (f : Feature) (file : String)

theorem scenarioEntries_lineOf : ∀ e ∈ f.scenarioEntries file, e.LineOf file := by
  intro e he
  obtain ⟨sc, -, shows⟩ := exists_of_mem_right (f.forall₂_scenarioEntries file) he
  exact ScenarioEntry.lineOf_iff.2 shows.file

theorem expandedEntries_lineOf {es : List ScenarioEntry} (h : f.expandedEntries file = .ok es) :
    ∀ e ∈ es, e.LineOf file := by
  obtain ⟨groups, rfl, expanded⟩ := expandedEntries_groups h
  intro e he
  obtain ⟨group, hgroup, mem⟩ := List.mem_flatten.1 he
  obtain ⟨⟨sc, whole⟩, pair, expands⟩ := exists_of_mem_right expanded hgroup
  have own := (f.scenarioEntries_lineOf file whole (List.of_mem_zip pair).2).source
  exact ScenarioEntry.lineOf_iff.2 ((expands.file mem).trans own)

end Feature

end Gherkin
