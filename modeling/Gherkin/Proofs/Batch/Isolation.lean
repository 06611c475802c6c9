import Gherkin.Proofs.Batch.Plans
import Gherkin.Proofs.Batch.Reasons
import Gherkin.Proofs.Disk.SameTree
import Gherkin.Proofs.Json.Listings
import Gherkin.Proofs.Listing.Lines
import Gherkin.Proofs.Text.LineEnds

/-!
# Batches, file by file

What a command says of a file comes from the path of the file and from what reading it gives
(`Reading.ofContents`). A check, a listing of steps and a listing of scenarios put these parts
together in the order of the files, so one file has no say in what is listed of another.
-/

namespace Gherkin

/-- The document in a file, by the path of the file and by what reading it gives. -/
def Document.ofFile (path : String) (contents : Except DiskError ByteArray) :
    Except LoadError Document :=
  match contents.bind Text.linesOfBytes with
  | .error e => .error (.unreadable path e)
  | .ok raws =>
    match ofLines (Line.readAll raws) with
    | .error v => .error (.invalid path v)
    | .ok doc => .ok doc

theorem Disk.load_eq (d : Disk) (path : String) :
    d.load path = Document.ofFile path (d.read path) := rfl

/-- What is said of a file that cannot be loaded stands in one line. -/
theorem Document.unbroken_reason {path : String} {contents : Except DiskError ByteArray}
    {e : LoadError} (h : ofFile path contents = .error e) : Unbroken e.reason := by
  simp only [ofFile] at h
  split at h
  · cases h
    exact DiskError.unbroken_message _
  · split at h
    · next failed =>
      cases h
      refine Violation.unbroken_message ?_
      rintro line expected found rfl
      exact ofLines_ne_kindMismatch failed
    · cases h

namespace Reading

/-- The reading of a file, by the path of the file and by what reading it gives. -/
def ofContents (path : String) (contents : Except DiskError ByteArray) : Reading :=
  ⟨path, Document.ofFile path contents⟩

/-- The steps that the file has, if it can be loaded. -/
def stepEntries? (r : Reading) : Option (List StepEntry) :=
  r.result.toOption.map fun doc => doc.feature.stepEntries r.file

/-- The scenarios that the file has, if it can be loaded and each outline can be filled that is to
be expanded. -/
def scenarioEntries? (r : Reading) (expand : Bool) : Option (List ScenarioEntry) :=
  r.result.toOption.bind fun doc =>
    if expand then (doc.feature.expandedEntries r.file).toOption
    else some (doc.feature.scenarioEntries r.file)

variable (r : Reading)

theorem steps_entries? : r.steps.entries? = r.stepEntries? := by
  rcases r with ⟨file, e | doc⟩ <;> rfl

theorem scenarios_entries? (expand : Bool) :
    (r.scenarios expand).entries? = r.scenarioEntries? expand := by
  rcases r with ⟨file, e | doc⟩
  · rfl
  · cases expand with
    | false => rfl
    | true => exact entries?_scenarios_true doc file

/-- The steps that are listed of the file are its own. -/
theorem stepEntries?_lineOf : ∀ e ∈ r.stepEntries?.getD [], e.LineOf r.file := by
  rcases r with ⟨file, e | doc⟩
  · simp [stepEntries?, Except.toOption]
  · exact doc.feature.stepEntries_lineOf file

/-- The scenarios that are listed of the file are its own. -/
theorem scenarioEntries?_lineOf (expand : Bool) :
    ∀ e ∈ (r.scenarioEntries? expand).getD [], e.LineOf r.file := by
  rcases r with ⟨file, e | doc⟩
  · simp [scenarioEntries?, Except.toOption]
  · cases expand with
    | false => exact doc.feature.scenarioEntries_lineOf file
    | true =>
      cases filled : doc.feature.expandedEntries file with
      | error e => simp [scenarioEntries?, Except.toOption, filled]
      | ok entries =>
        simpa [scenarioEntries?, Except.toOption, filled] using
          doc.feature.expandedEntries_lineOf file filled

theorem isNone_stepEntries? : r.stepEntries?.isNone = r.fails := by
  rcases r with ⟨file, e | doc⟩ <;> rfl

theorem isNone_scenarioEntries? : (r.scenarioEntries? false).isNone = r.fails := by
  rcases r with ⟨file, e | doc⟩ <;> rfl

end Reading

theorem Reading.scenarioEntries?_eq_none_iff (r : Reading) :
    r.scenarioEntries? true = none ↔
      r.fails = true ∨ ∃ doc, r.result = .ok doc ∧
        ∃ o ∈ doc.feature.outlines, ∃ e, o.instances = .error e := by
  rcases r with ⟨file, e | doc⟩
  · simp [scenarioEntries?, fails, Except.toOption]
  · have unfilled : (doc.feature.expandedEntries file).toOption = none ↔
        ∃ o ∈ doc.feature.outlines, ∃ e, o.instances = .error e := by
      simp only [toOption_eq_none_iff, Feature.exists_expandedEntries_iff, ← not_exists_ok_iff,
        not_forall, exists_prop]
    simp only [fails, Bool.false_eq_true, false_or, Except.ok.injEq, exists_eq_left', ← unfilled]
    rfl

/-- The files, each with what reading it gives. -/
def Disk.readings (d : Disk) (files : List String) : List Reading :=
  files.map fun file => .ofContents file (d.read file)

/-- The text of a listing. -/
def listed (json : Bool) (written : α → String) (value : α → Json) (entries : List α) : String :=
  if json then (Json.list (entries.map value)).pretty ++ "\n"
  else String.join (entries.map written)

/-- With JSON the text of a listing is read as the entries. -/
theorem readAs_listed (written : α → String) {value : α → Json}
    {ofValue? : Json.Value → Option α} (each : ∀ e, ofValue? (value e).value = some e)
    (entries : List α) : Listing.ReadAs (listed true written value entries) ofValue? entries := by
  have text : listed true written value entries = Listing.text (entries.map value) :=
    (Plan.texts_writeJson _).symm
  rw [text]
  exact Listing.readAs_text each entries

namespace Portion

theorem texts_log (ps : List (Portion α)) : Action.texts (log ps) = "" := by
  rw [log, Action.texts_flatMap]
  induction ps with
  | nil => rfl
  | cons p ps ih => simpa using ih

theorem entries_map (f : Reading → Portion α) (rs : List Reading) :
    entries (rs.map f) = rs.flatMap fun r => (f r).entries?.getD [] := by
  rw [entries, List.flatMap_map]

theorem failed_map (f : Reading → Portion α) (rs : List Reading) :
    failed (rs.map f) = rs.countP fun r => (f r).entries?.isNone := by
  rw [failed, List.countP_map]
  rfl

end Portion

namespace Plan

theorem texts_check (rs : List Reading) :
    Action.texts (check rs) = String.join (rs.map Reading.checkLine) ++
      checkSummary rs.length (rs.countP Reading.fails) := by
  simp only [check, Action.texts_append, Action.texts_flatMap, Action.texts_cons, Action.texts_nil]
  simp [Reading.check, Action.text]

/-- A listing writes its entries; what is logged before them is not written. -/
theorem texts_listing (ps : List (Portion α)) (json : Bool) (written : α → String)
    (value : α → Json) (purpose : α → Purpose) :
    Action.texts (Portion.log ps ++
        if json then writeJson ((Portion.entries ps).map value)
        else (Portion.entries ps).map fun e => .write (written e) (purpose e)) =
      listed json written value (Portion.entries ps) := by
  rw [Action.texts_append, Portion.texts_log, String.empty_append]
  cases json with
  | true => exact texts_writeJson _
  | false => exact Action.texts_write _ _ _

end Plan

/-- The line that a check writes for a file: whether it can be loaded, and no more than one line
for a file whose name is in one line. -/
theorem Reading.checkLine_eq (file : String) (contents : Except DiskError ByteArray) :
    ∃ rest, Unbroken rest ∧ (ofContents file contents).checkLine =
      (if (ofContents file contents).fails then "FAIL " else "ok   ") ++ file ++ rest ++ "\n" := by
  cases loaded : Document.ofFile file contents with
  | ok doc => exact ⟨"", by decide, by simp [checkLine, fails, ofContents, loaded]⟩
  | error e =>
    have reason : Unbroken (": " ++ e.reason) :=
      unbroken_append_iff.2 ⟨by decide, Document.unbroken_reason loaded⟩
    refine ⟨": " ++ e.reason, reason, ?_⟩
    simp [checkLine, fails, ofContents, loaded, String.append_assoc]

namespace Command

variable {d : Disk} {paths files : List String}

/-- A plan on the files that are found writes what its actions write. -/
theorem planBatch_writes (h : d.features paths = .ok files)
    (f : List Reading → List Action × Nat) :
    (planBatch d paths f).Writes (f (d.readings files)).2
      (Action.texts (f (d.readings files)).1) := by
  have batch : d.batch paths = .ok (d.readings files) := by
    rw [Disk.batch, h]
    rfl
  have text : Action.texts
      ((d.batchEvents (d.readings files)).map .log ++ (f (d.readings files)).1) =
      Action.texts (f (d.readings files)).1 := by
    simp
  rw [planBatch, batch, ← text]
  exact Plan.writes_ofActions _ _

theorem check_writes (h : d.features paths = .ok files) :
    ((check paths).plan d).Writes ((d.readings files).countP Reading.fails)
      (String.join ((d.readings files).map Reading.checkLine) ++
        checkSummary files.length ((d.readings files).countP Reading.fails)) := by
  have count : (d.readings files).length = files.length := by simp [Disk.readings]
  rw [← count, ← Plan.texts_check]
  exact planBatch_writes h fun batch => (Plan.check batch, batch.countP Reading.fails)

theorem steps_writes (h : d.features paths = .ok files) (json : Bool) :
    ((steps paths json).plan d).Writes ((d.readings files).countP Reading.fails)
      (listed json StepEntry.written StepEntry.json
        ((d.readings files).flatMap fun r => r.stepEntries?.getD [])) := by
  have writes := planBatch_writes h fun batch =>
    (Plan.listSteps (batch.map Reading.steps) json, Portion.failed (batch.map Reading.steps))
  rw [Plan.listSteps, Plan.texts_listing, Portion.entries_map, Portion.failed_map] at writes
  simp only [Reading.steps_entries?, Reading.isNone_stepEntries?] at writes
  exact writes

theorem scenarios_writes (h : d.features paths = .ok files) (expand json : Bool) :
    ((scenarios paths expand json).plan d).Writes
      ((d.readings files).countP fun r => (r.scenarioEntries? expand).isNone)
      (listed json ScenarioEntry.written ScenarioEntry.json
        ((d.readings files).flatMap fun r => (r.scenarioEntries? expand).getD [])) := by
  have writes := planBatch_writes h fun batch =>
    (Plan.listScenarios (batch.map (Reading.scenarios · expand)) json,
      Portion.failed (batch.map (Reading.scenarios · expand)))
  rw [Plan.listScenarios, Plan.texts_listing, Portion.entries_map, Portion.failed_map] at writes
  simp only [Reading.scenarios_entries?] at writes
  exact writes

/-- **Isolation.** On the files that are found, in their order and by the reading of each: a check
writes a line for each file, `ok` if it can be loaded, and the numbers of those that can and
cannot; a listing has the entries of each file that does not fail, and none of another, in a line
each or as JSON that is read as them. Each command counts the files that fail, which are the same
ones unless outlines are expanded. Other bytes in one file change neither the files that are found
nor what is read of any other. -/
theorem batch_isolated (h : d.features paths = .ok files) :
    let readings := d.readings files
    let loaded := readings.countP (!·.fails)
    let failed := readings.countP Reading.fails
    let stepEntries := readings.flatMap fun r => r.stepEntries?.getD []
    let scenarioEntries := fun expand => readings.flatMap fun r =>
      (r.scenarioEntries? expand).getD []
    loaded + failed = files.length ∧
    ((check paths).plan d).Writes failed
      (String.join (readings.map Reading.checkLine) ++ "checked " ++ toString files.length ++
        " feature file" ++ (if files.length = 1 then "" else "s") ++ ": " ++ toString loaded ++
        " ok, " ++ toString failed ++ " failed\n") ∧
    (∀ r ∈ readings, r.result = d.load r.file ∧ ∃ rest, Unbroken rest ∧
      r.checkLine = (if r.fails then "FAIL " else "ok   ") ++ r.file ++ rest ++ "\n") ∧
    (∀ json, ((steps paths json).plan d).Writes failed
      (listed json StepEntry.written StepEntry.json stepEntries)) ∧
    (∀ expand json, ((scenarios paths expand json).plan d).Writes
      (readings.countP fun r => (r.scenarioEntries? expand).isNone)
      (listed json ScenarioEntry.written ScenarioEntry.json (scenarioEntries expand))) ∧
    (∀ r ∈ readings, (∀ e ∈ r.stepEntries?.getD [], e.LineOf r.file) ∧
      ∀ expand, ∀ e ∈ (r.scenarioEntries? expand).getD [], e.LineOf r.file) ∧
    Listing.ReadAs (listed true StepEntry.written StepEntry.json stepEntries)
      StepEntry.ofValue? stepEntries ∧
    (∀ expand, Listing.ReadAs
      (listed true ScenarioEntry.written ScenarioEntry.json (scenarioEntries expand))
      ScenarioEntry.ofValue? (scenarioEntries expand)) ∧
    (∀ r : Reading, r.stepEntries?.isNone = r.fails ∧ (r.scenarioEntries? false).isNone = r.fails ∧
      (r.scenarioEntries? true = none ↔ r.fails = true ∨ ∃ doc, r.result = .ok doc ∧
        ∃ o ∈ doc.feature.outlines, ∃ e, o.instances = .error e)) ∧
    (∀ place old new, d.node? place = some (.file old) →
      (d.set place (.file new)).features paths = .ok files ∧
      ∀ file, (∀ n, d.find file ≠ .ok (place, n)) →
        (d.set place (.file new)).read file = d.read file) := by
  intro readings loaded failed stepEntries scenarioEntries
  have each : ∀ r ∈ readings, ∃ file, r = .ofContents file (d.read file) := by
    intro r hr
    obtain ⟨file, -, rfl⟩ := List.mem_map.1 hr
    exact ⟨file, rfl⟩
  have both : loaded + failed = files.length := by
    have split : readings.length = failed + loaded := by
      simpa using List.length_eq_countP_add_countP Reading.fails
    have count : readings.length = files.length := List.length_map _
    omega
  refine ⟨both, ?_, ?_, steps_writes h, scenarios_writes h,
    fun r _ => ⟨r.stepEntries?_lineOf, r.scenarioEntries?_lineOf⟩,
    readAs_listed _ Listing.ofValue?_step _,
    fun _ => readAs_listed _ Listing.ofValue?_scenario _, ?_, ?_⟩
  · have rest : files.length - failed = loaded := by omega
    have checked := check_writes h
    unfold checkSummary at checked
    rw [rest] at checked
    simpa only [String.append_assoc] using checked
  · intro r hr
    obtain ⟨file, rfl⟩ := each r hr
    exact ⟨(d.load_eq file).symm, Reading.checkLine_eq file (d.read file)⟩
  · exact fun r => ⟨r.isNone_stepEntries?, r.isNone_scenarioEntries?,
      r.scenarioEntries?_eq_none_iff⟩
  · intro place old new held
    exact ⟨(Disk.sameTree_set held).features_eq paths ▸ h, fun file away => Disk.read_set held away⟩

end Command

/-- A text with an outline that can be filled, and a scenario in a rule. -/
def filledText : String :=
  "Feature: F\nScenario Outline: <n>\nGiven x <n>\nExamples:\n|n|\n|1|\n" ++
    "Rule: R\nScenario: S\nAnd y\n"

/-- The document of `filledText`. -/
def filledDocument : Document :=
  ⟨[], ⟨1, "F", [], []⟩, none,
    [.outline ⟨.outline, ⟨2, "<n>", [], []⟩, [⟨.given, 3, "x <n>", [], none⟩],
      .examples, ⟨4, "", [], []⟩, some ⟨⟨5, "|n|"⟩, [⟨6, "|1|"⟩], []⟩⟩,
    .rule ⟨⟨7, "R", [], []⟩, [⟨.scenario, ⟨8, "S", [], []⟩, [⟨.and, 9, "y", [], none⟩]⟩]⟩]⟩

/-- A text with a scenario, and an outline that has no column for one of its placeholders. -/
def unfilledText : String :=
  "Feature: G\nScenario: T\nScenario Outline: O\nWhen <z>\nExamples:\n|n|\n|2|\n"

/-- The document of `unfilledText`. -/
def unfilledDocument : Document :=
  ⟨[], ⟨1, "G", [], []⟩, none,
    [.scenario ⟨.scenario, ⟨2, "T", [], []⟩, []⟩,
    .outline ⟨.outline, ⟨3, "O", [], []⟩, [⟨.when, 4, "<z>", [], none⟩],
      .examples, ⟨5, "", [], []⟩, some ⟨⟨6, "|n|"⟩, [⟨7, "|2|"⟩], []⟩⟩]⟩

/-- The two texts as files, and between them a file that is not UTF-8. -/
def mixedDisk : Disk :=
  ⟨[(["a"], .file filledText.toUTF8), (["b"], .file ⟨#[255]⟩),
    (["c"], .file unfilledText.toUTF8)], []⟩

theorem mixedDisk_find : mixedDisk.find "a" = .ok (["a"], .file filledText.toUTF8) ∧
    mixedDisk.find "b" = .ok (["b"], .file ⟨#[255]⟩) ∧
    mixedDisk.find "c" = .ok (["c"], .file unfilledText.toUTF8) :=
  ⟨Disk.find_name (by decide) rfl rfl (by simp), Disk.find_name (by decide) rfl rfl (by simp),
    Disk.find_name (by decide) rfl rfl (by simp)⟩

theorem mixedDisk_features : mixedDisk.features ["c", "b", "a"] = .ok ["a", "b", "c"] := by
  obtain ⟨filled, bytes, unfilled⟩ := mixedDisk_find
  have sorted : Path.sorted ["c", "b", "a"] = ["a", "b", "c"] := by decide +kernel
  rw [Disk.features, List.mapM_cons, List.mapM_cons, List.mapM_cons, List.mapM_nil,
    Disk.featuresAt_of_find filled, Disk.featuresAt_of_find bytes,
    Disk.featuresAt_of_find unfilled, ← sorted]
  rfl

/-- What reading the files of `mixedDisk` gives. -/
def mixedReadings : List Reading :=
  [⟨"a", .ok filledDocument⟩, ⟨"b", .error (.unreadable "b" .invalidText)⟩,
    ⟨"c", .ok unfilledDocument⟩]

theorem mixedDisk_readings : mixedDisk.readings ["a", "b", "c"] = mixedReadings := by
  obtain ⟨filled, bytes, unfilled⟩ := mixedDisk_find
  have invalid : Text.linesOfBytes ⟨#[255]⟩ = .error .invalidText := by decide +kernel
  have first : Document.ofLines (Line.readAll (Text.lines (Text.withoutMark filledText))) =
      .ok filledDocument := by decide +kernel
  have last : Document.ofLines (Line.readAll (Text.lines (Text.withoutMark unfilledText))) =
      .ok unfilledDocument := by decide +kernel
  simp only [Disk.readings, mixedReadings, List.map_cons, List.map_nil, Reading.ofContents,
    Document.ofFile, Disk.read_of_find filled, Disk.read_of_find bytes, Disk.read_of_find unfilled,
    Except.bind, Text.linesOfBytes_toUTF8, invalid, first, last]

/-- The expanded listing of `mixedDisk` as JSON. -/
def mixedJson : String :=
  "[\n  \x7b\n    \"feature\": \"a\",\n    \"line\": 6,\n" ++
    "    \"keyword\": \"Scenario Outline\",\n    \"name\": \"1\",\n    \"steps\": 1,\n" ++
    "    \"example_row\": 0\n  \x7d,\n" ++
    "  \x7b\n    \"feature\": \"a\",\n    \"line\": 8,\n    \"keyword\": \"Scenario\",\n" ++
    "    \"name\": \"S\",\n    \"rule\": \"R\",\n    \"steps\": 1\n  \x7d\n]"

theorem mixedDisk_batch_isolated :
    mixedDisk.features ["c", "b", "a"] = .ok ["a", "b", "c"] ∧
    ((Command.check ["c", "b", "a"]).plan mixedDisk).Writes 1 ("ok   a\n" ++
      "FAIL b: stream did not contain valid UTF-8\nok   c\n" ++
      "checked 3 feature files: 2 ok, 1 failed\n") ∧
    (∃ s, ((Command.steps ["c", "b", "a"] false).plan mixedDisk).run .unbounded = .ok (1, s) ∧
      s.written = "a:3: Given x <n> [n]\na:9: And (Given) y\nc:4: When <z> [z]\n") ∧
    ((Command.scenarios ["c", "b", "a"] false false).plan mixedDisk).Writes 1
      ("a:2: Scenario Outline: <n> (1 steps)\na:8: Rule: R / Scenario: S (1 steps)\n" ++
        "c:2: Scenario: T (0 steps)\nc:3: Scenario Outline: O (1 steps)\n") ∧
    ((Command.scenarios ["c", "b", "a"] true false).plan mixedDisk).Writes 2
      ("a:6: Scenario Outline: 1 [example 1] (1 steps)\n" ++
        "a:8: Rule: R / Scenario: S (1 steps)\n") ∧
    ((Command.scenarios ["c", "b", "a"] true true).plan mixedDisk).Writes 2 (mixedJson ++ "\n") ∧
    (mixedDisk.set ["b"] (.file ⟨#[]⟩)).read "a" = mixedDisk.read "a" := by
  obtain ⟨-, check, -, steps, scenarios, -, -, -, -, others⟩ :=
    Command.batch_isolated mixedDisk_features
  rw [mixedDisk_readings] at check steps scenarios
  have plain : listed false StepEntry.written StepEntry.json
      (mixedReadings.flatMap fun r => r.stepEntries?.getD []) =
        "a:3: Given x <n> [n]\na:9: And (Given) y\nc:4: When <z> [z]\n" := by decide +kernel
  have whole : listed false ScenarioEntry.written ScenarioEntry.json
      (mixedReadings.flatMap fun r => (r.scenarioEntries? false).getD []) =
        "a:2: Scenario Outline: <n> (1 steps)\na:8: Rule: R / Scenario: S (1 steps)\n" ++
          "c:2: Scenario: T (0 steps)\nc:3: Scenario Outline: O (1 steps)\n" := by decide +kernel
  have expanded : listed false ScenarioEntry.written ScenarioEntry.json
      (mixedReadings.flatMap fun r => (r.scenarioEntries? true).getD []) =
        "a:6: Scenario Outline: 1 [example 1] (1 steps)\n" ++
          "a:8: Rule: R / Scenario: S (1 steps)\n" := by decide +kernel
  have json : listed true ScenarioEntry.written ScenarioEntry.json
      (mixedReadings.flatMap fun r => (r.scenarioEntries? true).getD []) = mixedJson ++ "\n" := by
    decide +kernel
  have failed : (mixedReadings.countP fun r => (r.scenarioEntries? true).isNone) = 2 := by
    decide +kernel
  obtain ⟨s, run, written⟩ := steps false .unbounded Sink.unbounded_takes
  obtain ⟨-, kept⟩ := others ["b"] ⟨#[255]⟩ ⟨#[]⟩ rfl
  refine ⟨mixedDisk_features, check, ⟨s, run, ?_⟩, ?_, ?_, ?_, kept "a" ?_⟩
  · rw [← plain]
    exact written
  · rw [← whole]
    exact scenarios false false
  · simpa only [failed, expanded] using scenarios true false
  · simpa only [failed, json] using scenarios true true
  · simp [mixedDisk_find.1]

end Gherkin
