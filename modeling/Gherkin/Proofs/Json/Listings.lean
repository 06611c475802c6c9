import Gherkin.Proofs.Batch.Plans
import Gherkin.Proofs.Json.ReadBack
import Mathlib.Data.List.Forall2

/-!
# Listings that are read back

A listing that is written as JSON is one list followed by a new line. Its items are read as the
entries, in their order; a field that an entry may lack is there if the entry has it
(`Listing.read_back`). So different listings are written differently.
-/

namespace Gherkin

/-- The entry of the listing of steps that the value is. -/
def StepEntry.ofValue? (v : Json.Value) : Option StepEntry := do
  let file ← (← v.field? "feature").text?
  let line ← (← v.field? "line").natural?
  let keyword ← (← v.field? "keyword").text?
  let resolved ← (← v.field? "resolved_keyword").text?
  let text ← (← v.field? "text").text?
  let parameters ← (← (← v.field? "parameters").items?).mapM Json.Value.text?
  return ⟨file, line, keyword, resolved, text, parameters⟩

/-- The entry of the listing of scenarios that the value is. -/
def ScenarioEntry.ofValue? (v : Json.Value) : Option ScenarioEntry := do
  let file ← (← v.field? "feature").text?
  let line ← (← v.field? "line").natural?
  let keyword ← (← v.field? "keyword").text?
  let name ← (← v.field? "name").text?
  let rule ← v.optional? "rule" Json.Value.text?
  let steps ← (← v.field? "steps").natural?
  let exampleRow ← v.optional? "example_row" Json.Value.natural?
  return ⟨file, line, keyword, name, rule, steps, exampleRow⟩

namespace Listing

/-- The text of a listing that is written as JSON. -/
def text (entries : List Json) : String :=
  Action.texts (Plan.writeJson entries)

/-- The text is a list followed by a new line, which a reader takes for the list of the values. -/
structure Written (text : String) (values : List Json.Value) : Prop where
  lines : ∃ body, text = body ++ "\n" ∧ Json.read? body = some (.list values)
  whole : Json.read? text = some (.list values)

theorem written_text (entries : List Json) : Written (text entries) (entries.map Json.value) := by
  have parts : text entries = (Json.list entries).pretty ++ "\n" := Plan.texts_writeJson entries
  have value : (Json.list entries).value = .list (entries.map Json.value) := by
    rw [Json.value, Json.itemValues_eq_map]
  have body : Json.read? (Json.list entries).pretty = some (.list (entries.map Json.value)) := by
    rw [← value, ← Json.read?_pretty (.list entries) [] (by simp), String.ofList_nil,
      String.append_empty]
  refine ⟨⟨_, parts, body⟩, ?_⟩
  rw [parts, ← value]
  exact Json.read?_pretty (.list entries) ['\n'] (by simp [Json.isSpace])

@[simp] theorem natural?_number (n : Nat) : Json.Value.natural? (.number ⟨n, 0⟩) = some n := by
  simp [Json.Value.natural?]

@[simp] theorem mapM_text? (ss : List String) :
    ss.mapM (Json.Value.text? ∘ Json.value ∘ Json.text) = some ss := by
  induction ss with
  | nil => rfl
  | cons s ss ih =>
    rw [List.mapM_cons, ih]
    rfl

theorem ofValue?_step (e : StepEntry) : StepEntry.ofValue? e.json.value = some e := by
  simp [StepEntry.ofValue?, StepEntry.json, Json.value, Json.fieldValues, Json.itemValues_eq_map,
    Json.Value.field?, List.lookup_cons, Json.Value.text?, Json.Value.items?]

theorem ofValue?_scenario (e : ScenarioEntry) : ScenarioEntry.ofValue? e.json.value = some e := by
  rcases e with ⟨file, line, keyword, name, _ | rule, steps, _ | row⟩ <;>
    simp [ScenarioEntry.ofValue?, ScenarioEntry.json, Json.value, Json.fieldValues,
      Json.Value.field?, Json.Value.optional?, List.lookup_cons, Json.Value.text?]

theorem field?_rule (e : ScenarioEntry) :
    e.json.value.field? "rule" = e.rule.map Json.Value.text := by
  rcases e with ⟨file, line, keyword, name, _ | rule, steps, _ | row⟩ <;>
    simp [ScenarioEntry.json, Json.value, Json.fieldValues, Json.Value.field?, List.lookup_cons]

theorem field?_exampleRow (e : ScenarioEntry) :
    e.json.value.field? "example_row" = e.exampleRow.map fun n => .number ⟨n, 0⟩ := by
  rcases e with ⟨file, line, keyword, name, _ | rule, steps, _ | row⟩ <;>
    simp [ScenarioEntry.json, Json.value, Json.fieldValues, Json.Value.field?, List.lookup_cons]

/-- Entries that are read back one by one are read back together. -/
theorem mapM_ofValue? {json : α → Json} {ofValue? : Json.Value → Option α}
    (each : ∀ e, ofValue? (json e).value = some e) (es : List α) :
    ((es.map json).map Json.value).mapM ofValue? = some es := by
  induction es with
  | nil => rfl
  | cons e es ih =>
    rw [List.map_cons, List.map_cons, List.mapM_cons, each, ih]
    rfl

/-- The text is a list and the end of its line, and the items are read as the entries. -/
def ReadAs (text : String) (ofValue? : Json.Value → Option α) (entries : List α) : Prop :=
  ∃ values, Written text values ∧ values.mapM ofValue? = some entries

theorem readAs_text {json : α → Json} {ofValue? : Json.Value → Option α}
    (each : ∀ e, ofValue? (json e).value = some e) (es : List α) :
    ReadAs (text (es.map json)) ofValue? es :=
  ⟨_, written_text _, mapM_ofValue? each es⟩

/-- Entries that are read back from the text are told by it. -/
theorem eq_of_text_eq {json : α → Json} {ofValue? : Json.Value → Option α}
    (each : ∀ e, ofValue? (json e).value = some e) {es es' : List α}
    (same : text (es.map json) = text (es'.map json)) : es = es' := by
  have one := (written_text (es.map json)).whole
  have other := (written_text (es'.map json)).whole
  rw [same, other, Option.some.injEq, Json.Value.list.injEq] at one
  have read := mapM_ofValue? each es
  rw [← one, mapM_ofValue? each es', Option.some.injEq] at read
  exact read.symm

/-- **Nothing is lost.** The text of a listing of steps or of scenarios is one list and the end of
its line. It is read as that list; its items are read as the entries, in their order, and each has
the fields `rule` and `example_row` exactly if the entry has them. So different listings have
different texts. -/
theorem read_back :
    (∀ es : List StepEntry, ∃ values, Written (text (es.map StepEntry.json)) values ∧
      values.mapM StepEntry.ofValue? = some es) ∧
    (∀ es : List ScenarioEntry, ∃ values, Written (text (es.map ScenarioEntry.json)) values ∧
      values.mapM ScenarioEntry.ofValue? = some es ∧
      List.Forall₂ (fun (v : Json.Value) (e : ScenarioEntry) =>
        v.field? "rule" = e.rule.map .text ∧
        v.field? "example_row" = e.exampleRow.map fun n => .number ⟨n, 0⟩) values es) ∧
    (∀ es es' : List StepEntry,
      text (es.map StepEntry.json) = text (es'.map StepEntry.json) → es = es') ∧
    ∀ es es' : List ScenarioEntry,
      text (es.map ScenarioEntry.json) = text (es'.map ScenarioEntry.json) → es = es' := by
  refine ⟨fun es => ⟨_, written_text _, mapM_ofValue? ofValue?_step es⟩,
    fun es => ⟨_, written_text _, mapM_ofValue? ofValue?_scenario es, ?_⟩,
    fun _ _ => eq_of_text_eq ofValue?_step, fun _ _ => eq_of_text_eq ofValue?_scenario⟩
  rw [List.map_map, List.forall₂_map_left_iff, List.forall₂_same]
  exact fun e _ => ⟨field?_rule e, field?_exampleRow e⟩

/-- An entry without a rule and without a row, of a file whose name needs escapes. -/
def bareEntry : ScenarioEntry :=
  ⟨"a\"b\\c\n", 1, "Scenario", "\x01é", none, 0, none⟩

theorem bareEntry_read_back :
    text [bareEntry.json] ≠ text [{ bareEntry with rule := some "" }.json] ∧
    text [bareEntry.json] ≠ text [{ bareEntry with exampleRow := some 0 }.json] ∧
    ∃ values, Written (text [bareEntry.json]) values ∧
      values.mapM ScenarioEntry.ofValue? = some [bareEntry] := by
  refine ⟨fun same => ?_, fun same => ?_, ?_⟩
  · have entries := read_back.2.2.2 [bareEntry] [{ bareEntry with rule := some "" }] same
    simp [bareEntry] at entries
  · have entries := read_back.2.2.2 [bareEntry] [{ bareEntry with exampleRow := some 0 }] same
    simp [bareEntry] at entries
  · obtain ⟨values, written, read, -⟩ := read_back.2.1 [bareEntry]
    exact ⟨values, written, read⟩

end Listing

end Gherkin
