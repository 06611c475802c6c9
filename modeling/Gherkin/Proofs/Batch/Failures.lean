import Gherkin.Proofs.Batch.Isolation

/-!
# Output that fails

What a command writes goes out in passages, each with a context of its own, which is said when the
passage cannot be written. On a sink for a number of bytes a command fails with the passage in
which the byte after the last one stands; on a sink that does not flush it fails with its first
flush (`Command.output_failures`).
-/

namespace Gherkin

/-- A text that is written at once, and what is said if it cannot be. -/
structure Passage where
  text : String
  context : String
  deriving DecidableEq, Repr

/-- How many bytes the passages have. -/
def Passage.bytes (ps : List Passage) : Nat :=
  (String.join (ps.map Passage.text)).utf8ByteSize

namespace Action

/-- The passage that the action writes. -/
def passage? : Action → Option Passage
  | .write text purpose => some ⟨text, purpose.complaint⟩
  | _ => none

/-- What the action flushes for. -/
def flush? : Action → Option Purpose
  | .flush purpose => some purpose
  | _ => none

/-- The passages that the actions write. -/
def passages (as : List Action) : List Passage :=
  as.filterMap passage?

variable {as bs : List Action}

@[simp] theorem passages_append : passages (as ++ bs) = passages as ++ passages bs :=
  List.filterMap_append

@[simp] theorem passages_cons_log (e : Event) : passages (.log e :: as) = passages as := rfl

@[simp] theorem passages_cons_write (text : String) (purpose : Purpose) :
    passages (.write text purpose :: as) = ⟨text, purpose.complaint⟩ :: passages as := rfl

@[simp] theorem passages_cons_flush (purpose : Purpose) :
    passages (.flush purpose :: as) = passages as := rfl

@[simp] theorem passages_nil : passages [] = [] := rfl

@[simp] theorem passages_log (es : List Event) : passages (es.map .log) = [] := by
  simp [passages, passage?]

@[simp] theorem passages_write (f : α → String) (purpose : α → Purpose) (xs : List α) :
    passages (xs.map fun x => .write (f x) (purpose x)) =
      xs.map fun x => ⟨f x, (purpose x).complaint⟩ := by
  simp [passages, List.filterMap_map, Function.comp_def, passage?]

/-- Passages are all that is written. -/
theorem join_passages (as : List Action) :
    String.join ((passages as).map Passage.text) = texts as := by
  induction as with
  | nil => rfl
  | cons a as ih =>
    rw [texts_cons, ← ih]
    cases a <;> simp [text]

end Action

namespace Passage

/-- The byte after the first `n` stands in the passage. -/
def Holds (ps : List Passage) (n : Nat) (p : Passage) : Prop :=
  ∃ before after, ps = before ++ p :: after ∧ bytes before ≤ n ∧
    n < bytes before + p.text.utf8ByteSize

variable {p q : Passage} {ps : List Passage} {n : Nat}

theorem bytes_cons (p : Passage) (ps : List Passage) :
    bytes (p :: ps) = p.text.utf8ByteSize + bytes ps := by
  simp [bytes]

theorem holds_lt_bytes (h : Holds ps n p) : n < bytes ps := by
  obtain ⟨before, after, rfl, -, high⟩ := h
  have all : bytes (before ++ p :: after) = bytes before + (p.text.utf8ByteSize + bytes after) := by
    simp [bytes]
  omega

/-- The byte stands in the first passage, or in one of the others. -/
theorem holds_cons_iff : Holds (q :: ps) n p ↔
    n < q.text.utf8ByteSize ∧ p = q ∨
      q.text.utf8ByteSize ≤ n ∧ Holds ps (n - q.text.utf8ByteSize) p := by
  constructor
  · rintro ⟨before, after, cut, low, high⟩
    cases before with
    | nil =>
      cases cut
      exact .inl ⟨by simpa [bytes] using high, rfl⟩
    | cons r before =>
      cases cut
      rw [bytes_cons] at low high
      exact .inr ⟨by omega, before, after, rfl, by omega, by omega⟩
  · rintro (⟨high, rfl⟩ | ⟨fits, before, after, rfl, low, high⟩)
    · exact ⟨[], ps, rfl, Nat.zero_le n, by simpa [bytes] using high⟩
    · refine ⟨q :: before, after, rfl, ?_, ?_⟩ <;> rw [bytes_cons] <;> omega

/-- The passage in which the byte after the first `n` stands. -/
def at? : List Passage → Nat → Option Passage
  | [], _ => none
  | p :: ps, n => if n < p.text.utf8ByteSize then some p else at? ps (n - p.text.utf8ByteSize)

theorem holds_iff_at? : Holds ps n p ↔ at? ps n = some p := by
  induction ps generalizing n with
  | nil => simp [Holds, at?]
  | cons q ps ih =>
    rw [holds_cons_iff, ih, at?]
    by_cases inside : n < q.text.utf8ByteSize
    · simp [inside, Nat.not_le.2 inside, eq_comm]
    · simp [inside, Nat.not_lt.1 inside]

end Passage

/-! ## Sinks that fail -/

namespace Sink

variable {s : Sink} {as : List Action} {n : Nat}

theorem perform_write_full {text : String} (room : s.room = some n) (full : n < text.utf8ByteSize)
    (purpose : Purpose) : s.perform (.write text purpose) = .error ⟨purpose, .full⟩ := by
  simp [perform, write, room, Nat.not_le.2 full, Except.mapError]

theorem perform_write_room {text : String} (room : s.room = some n) (fits : text.utf8ByteSize ≤ n)
    (purpose : Purpose) : s.perform (.write text purpose) =
      .ok { s with written := s.written ++ text, room := some (n - text.utf8ByteSize) } := by
  simp [perform, write, room, fits, Except.mapError]

/-- A sink with too little room fails with the passage that does not go in. -/
theorem performAll_short (flushes : s.flushes = true) (room : s.room = some n)
    (short : n < Passage.bytes (Action.passages as)) :
    ∃ p e, Passage.Holds (Action.passages as) n p ∧ s.performAll as = .error e ∧
      e.purpose.complaint = p.context ∧ e.cause = .full := by
  induction as generalizing s n with
  | nil => simp [Passage.bytes] at short
  | cons a as ih =>
    cases a with
    | log event => exact ih flushes room short
    | flush purpose =>
      rw [performAll, perform_flush flushes]
      exact ih flushes room short
    | write text purpose =>
      rw [performAll, Action.passages_cons_write]
      by_cases fits : text.utf8ByteSize ≤ n
      · have left : n - text.utf8ByteSize < Passage.bytes (Action.passages as) := by
          rw [Action.passages_cons_write, Passage.bytes_cons] at short
          simp only at short
          omega
        rw [perform_write_room room fits]
        obtain ⟨p, e, holds, failed, context⟩ := @ih { s with
          written := s.written ++ text, room := some (n - text.utf8ByteSize) } _ flushes rfl left
        exact ⟨p, e, Passage.holds_cons_iff.2 (.inr ⟨fits, holds⟩), failed, context⟩
      · have full : n < text.utf8ByteSize := Nat.not_le.1 fits
        rw [perform_write_full room full]
        exact ⟨_, _, Passage.holds_cons_iff.2 (.inl ⟨full, rfl⟩), rfl, rfl, rfl⟩

/-- A sink that does not flush fails with the first flush. -/
theorem performAll_unflushable {purpose : Purpose} (flushes : s.flushes = false)
    (room : s.room = none) (first : as.findSome? Action.flush? = some purpose) :
    s.performAll as = .error ⟨purpose, .unflushable⟩ := by
  induction as generalizing s with
  | nil => cases first
  | cons a as ih =>
    cases a with
    | log event => exact ih flushes room first
    | flush other =>
      cases first
      simp [performAll, perform, flush, flushes, Except.mapError]
    | write text other =>
      have taken : s.perform (.write text other) = .ok { s with written := s.written ++ text } := by
        simp [perform, write, room, Except.mapError]
      rw [performAll, taken]
      exact ih flushes room first

end Sink

/-! ## What commands write -/

/-- The files that the paths stand for, each with what reading it gives; none if the search
fails. -/
def Disk.found (d : Disk) (paths : List String) : List Reading :=
  d.readings ((d.features paths).toOption.getD [])

/-- The passages of a listing: with JSON the body and the end of its line, or else a line for each
entry. -/
def listedPassages (json : Bool) (written : α → String) (value : α → Json) (context : α → String)
    (entries : List α) : List Passage :=
  if json then
    [⟨(Json.list (entries.map value)).pretty, "failed to serialise listing to JSON"⟩,
      ⟨"\n", "failed to terminate JSON output with newline"⟩]
  else entries.map fun e => ⟨written e, context e⟩

namespace Command

/-- The passages that a command writes. -/
def passages (d : Disk) : Command → List Passage
  | .check paths =>
    let readings := d.found paths
    readings.map (fun r => ⟨r.checkLine, "failed to write check result for " ++ r.file⟩) ++
      [⟨checkSummary readings.length (readings.countP Reading.fails),
        "failed to write check summary"⟩]
  | .render file =>
    (d.load file).toOption.toList.map fun doc => ⟨doc.render, "failed to write rendered feature"⟩
  | .steps paths json =>
    listedPassages json StepEntry.written StepEntry.json
      (fun e => "failed to write step at " ++ e.file ++ ":" ++ toString e.line)
      ((d.found paths).flatMap fun r => r.stepEntries?.getD [])
  | .scenarios paths expand json =>
    listedPassages json ScenarioEntry.written ScenarioEntry.json
      (fun e => "failed to write scenario at " ++ e.file ++ ":" ++ toString e.line)
      ((d.found paths).flatMap fun r => (r.scenarioEntries? expand).getD [])

/-- The command lists as JSON. -/
def listsJson : Command → Bool
  | .steps _ json | .scenarios _ _ json => json
  | _ => false

/-- What a command flushes for first. -/
def firstFlush (c : Command) : Purpose :=
  if c.listsJson then .listingFlush else .output

variable {d : Disk} {paths files : List String} {e : SearchError}

theorem planBatch_eq_ok (h : d.features paths = .ok files)
    (f : List Reading → List Action × Nat) :
    planBatch d paths f = .ofActions ((d.batchEvents (d.found paths)).map .log ++
      (f (d.found paths)).1) (f (d.found paths)).2 := by
  have batch : d.batch paths = .ok (d.found paths) := by
    rw [Disk.batch, Disk.found, h]
    rfl
  rw [planBatch, batch]

theorem planBatch_eq_error (h : d.features paths = .error e)
    (f : List Reading → List Action × Nat) : planBatch d paths f = .ofFault (.search e) := by
  rw [planBatch, Disk.batch, h]
  rfl

end Command

/-- The actions write the passages, and they flush for the purpose first, if at all. -/
structure Action.Sends (as : List Action) (ps : List Passage) (purpose? : Option Purpose) :
    Prop where
  passages : Action.passages as = ps
  flush : as.findSome? Action.flush? = purpose?

namespace Action

variable {as bs : List Action} {ps qs : List Passage} {purpose? : Option Purpose}

theorem sends_log (es : List Event) : Sends (es.map .log) [] none :=
  ⟨passages_log es, by simp [flush?]⟩

theorem sends_write (f : α → String) (purpose : α → Purpose) (xs : List α) :
    Sends (xs.map fun x => .write (f x) (purpose x))
      (xs.map fun x => ⟨f x, (purpose x).complaint⟩) none :=
  ⟨passages_write f purpose xs, by simp [flush?]⟩

theorem Sends.append (h : Sends as ps none) (h' : Sends bs qs purpose?) :
    Sends (as ++ bs) (ps ++ qs) purpose? :=
  ⟨by rw [passages_append, h.passages, h'.passages],
    by rw [List.findSome?_append, h.flush, h'.flush, Option.none_or]⟩

theorem Sends.append_flush (h : Sends as ps purpose?) :
    Sends (as ++ [.flush .output]) ps (some (purpose?.getD .output)) := by
  refine ⟨by simp [h.passages], ?_⟩
  rw [List.findSome?_append, h.flush]
  cases purpose? <;> rfl

theorem sends_check (rs : List Reading) : Sends (Plan.check rs)
    (rs.map (fun r => ⟨r.checkLine, "failed to write check result for " ++ r.file⟩) ++
      [⟨checkSummary rs.length (rs.countP Reading.fails), "failed to write check summary"⟩])
    none := by
  have each : Sends (rs.flatMap Reading.check)
      (rs.map fun r => ⟨r.checkLine, "failed to write check result for " ++ r.file⟩) none := by
    induction rs with
    | nil => exact ⟨rfl, rfl⟩
    | cons r rs ih => exact Sends.append ⟨rfl, rfl⟩ ih
  exact each.append ⟨rfl, rfl⟩

/-- A listing sends its entries; what is logged before them is not sent. -/
theorem sends_listing (portions : List (Portion α)) (json : Bool) (written : α → String)
    (value : α → Json) (purpose : α → Purpose) :
    Sends (Portion.log portions ++
        if json then Plan.writeJson ((Portion.entries portions).map value)
        else (Portion.entries portions).map fun e => .write (written e) (purpose e))
      (listedPassages json written value (fun e => (purpose e).complaint)
        (Portion.entries portions))
      (if json then some .listingFlush else none) := by
  have logged : Sends (Portion.log portions) [] none := by
    have events : Portion.log portions = (portions.flatMap Portion.events).map .log := by
      rw [Portion.log, List.map_flatMap]
    rw [events]
    exact sends_log _
  refine logged.append ?_
  cases json with
  | true => exact ⟨rfl, rfl⟩
  | false => exact sends_write written purpose _

theorem sends_listSteps (rs : List Reading) (json : Bool) :
    Sends (Plan.listSteps (rs.map Reading.steps) json)
      (listedPassages json StepEntry.written StepEntry.json
        (fun e => "failed to write step at " ++ e.file ++ ":" ++ toString e.line)
        (rs.flatMap fun r => r.stepEntries?.getD []))
      (if json then some .listingFlush else none) := by
  have entries : Portion.entries (rs.map Reading.steps) =
      rs.flatMap fun r => r.stepEntries?.getD [] := by
    simp only [Portion.entries_map, Reading.steps_entries?]
  rw [← entries]
  exact sends_listing _ json _ _ fun e : StepEntry => .step e.file e.line

theorem sends_listScenarios (rs : List Reading) (expand json : Bool) :
    Sends (Plan.listScenarios (rs.map (Reading.scenarios · expand)) json)
      (listedPassages json ScenarioEntry.written ScenarioEntry.json
        (fun e => "failed to write scenario at " ++ e.file ++ ":" ++ toString e.line)
        (rs.flatMap fun r => (r.scenarioEntries? expand).getD []))
      (if json then some .listingFlush else none) := by
  have entries : Portion.entries (rs.map (Reading.scenarios · expand)) =
      rs.flatMap fun r => (r.scenarioEntries? expand).getD [] := by
    simp only [Portion.entries_map, Reading.scenarios_entries?]
  rw [← entries]
  exact sends_listing _ json _ _ fun e : ScenarioEntry => .scenario e.file e.line

end Action

/-- The plan is over with a fault before it has written or flushed anything, or else it sends the
passages. -/
inductive Plan.Sends (p : Plan) (ps : List Passage) (purpose : Purpose) : Prop where
  | ended {f : Fault} {es : List Event} (outcome : p.outcome = .error f)
      (actions : p.actions = es.map .log) : p.Sends ps purpose
  | sends {failed : Nat} (outcome : p.outcome = .ok failed)
      (actions : Action.Sends p.actions ps (some purpose)) : p.Sends ps purpose

namespace Command

variable {d : Disk} {paths : List String}

theorem planBatch_sends (f : List Reading → List Action × Nat) {ps : List Passage}
    {purpose? : Option Purpose} (sends : Action.Sends (f (d.found paths)).1 ps purpose?) :
    (planBatch d paths f).Sends ps (purpose?.getD .output) := by
  cases found : d.features paths with
  | error e =>
    rw [planBatch_eq_error found]
    exact @Plan.Sends.ended _ _ _ _ [] rfl rfl
  | ok files =>
    rw [planBatch_eq_ok found]
    exact .sends rfl ((Action.sends_log _).append sends).append_flush

theorem plan_sends (c : Command) (d : Disk) : (c.plan d).Sends (c.passages d) c.firstFlush := by
  cases c with
  | check paths =>
    exact planBatch_sends (fun batch => (Plan.check batch, batch.countP Reading.fails))
      (Action.sends_check _)
  | render file =>
    simp only [plan, passages]
    cases loaded : d.load file with
    | error e => exact .ended rfl rfl
    | ok doc => exact .sends rfl ((Action.sends_log _).append ⟨rfl, rfl⟩).append_flush
  | steps paths json =>
    have planned := planBatch_sends (fun batch => (Plan.listSteps (batch.map Reading.steps) json,
      Portion.failed (batch.map Reading.steps))) (Action.sends_listSteps (d.found paths) json)
    cases json <;> exact planned
  | scenarios paths expand json =>
    have planned := planBatch_sends (fun batch =>
      (Plan.listScenarios (batch.map (Reading.scenarios · expand)) json,
        Portion.failed (batch.map (Reading.scenarios · expand))))
      (Action.sends_listScenarios (d.found paths) expand json)
    cases json <;> exact planned

end Command

namespace Plan

variable {p : Plan} {s sink : Sink} {ps : List Passage} {purpose : Purpose} {failed n : Nat}
  {f : Fault}

theorem run_of_error {e : OutputError} (h : s.performAll p.actions = .error e) :
    p.run s = .error (.output e) := by
  rw [run, h]

/-- A plan that is over before it writes fails into every sink. -/
theorem run_over {es : List Event} (outcome : p.outcome = .error f)
    (actions : p.actions = es.map .log) (s : Sink) : p.run s = .error f := by
  have silent : s.performAll (es.map .log) = .ok s := by
    induction es generalizing p with
    | nil => rfl
    | cons e es ih => exact @ih ⟨es.map .log, .error f⟩ rfl rfl
  rw [run, actions, silent, outcome]
  rfl

/-- A plan that fails into a sink that takes everything fails with the same fault into each. -/
theorem Sends.run_eq_error (h : p.Sends ps purpose) (fails : p.run .unbounded = .error f)
    (s : Sink) : p.run s = .error f := by
  cases h with
  | ended outcome actions =>
    rw [run_over outcome actions] at fails ⊢
    exact fails
  | sends outcome =>
    rw [run_unbounded, outcome] at fails
    cases fails

/-- A plan that does not fail into a sink that takes everything sends the passages. -/
theorem Sends.of_run_eq_ok (h : p.Sends ps purpose)
    (done : p.run .unbounded = .ok (failed, sink)) :
    p.outcome = .ok failed ∧ Action.Sends p.actions ps (some purpose) ∧
      sink.written = String.join (ps.map Passage.text) := by
  cases h with
  | ended outcome actions =>
    rw [run_over outcome actions] at done
    cases done
  | sends outcome actions =>
    rw [run_unbounded, outcome] at done
    cases done
    refine ⟨outcome, actions, ?_⟩
    rw [← actions.passages, Action.join_passages]
    rfl

/-- A sink with too little room ends a plan with the passage that does not go in. -/
theorem run_short (sends : Action.Sends p.actions ps (some purpose))
    (short : n < Passage.bytes ps) : ∃ q f, Passage.Holds ps n q ∧ p.run (.bounded n) = .error f ∧
      f.top = q.context ∧ f.chain = [q.context, "disk full"] := by
  rw [← sends.passages] at short ⊢
  obtain ⟨q, e, holds, failed, context, cause⟩ :=
    @Sink.performAll_short (.bounded n) _ _ rfl rfl short
  refine ⟨q, .output e, holds, run_of_error failed, context, ?_⟩
  rw [Fault.chain, OutputError.chain, context, cause]
  rfl

/-- A sink with enough room does not end a plan. -/
theorem run_room (outcome : p.outcome = .ok failed)
    (sends : Action.Sends p.actions ps (some purpose)) (room : Passage.bytes ps ≤ n) :
    ∃ s, p.run (.bounded n) = .ok (failed, s) := by
  have takes : (Sink.bounded n).Takes (Action.texts p.actions) := by
    refine ⟨rfl, fun m hm => ?_⟩
    cases hm
    rwa [← Action.join_passages, sends.passages]
  obtain ⟨s, done, -⟩ := takes.performAll
  refine ⟨s, ?_⟩
  rw [run, done, outcome]
  rfl

/-- A sink that does not flush ends a plan with its first flush. -/
theorem run_unflushable (sends : Action.Sends p.actions ps (some purpose)) :
    ∃ f, p.run ⟨"", none, false⟩ = .error f ∧ f.top = purpose.complaint ∧
      f.chain = [purpose.complaint, "cannot flush"] :=
  ⟨_, run_of_error (Sink.performAll_unflushable rfl rfl sends.flush), rfl, rfl⟩

end Plan

/-- **Output that fails.** A command that fails into a sink that takes everything fails with the
same fault into every sink. Otherwise it writes its passages; into a sink for `n` bytes it counts
the same failures if these are enough, and it fails with the context of the passage in which the
next byte stands if they are not; and into a sink that does not flush it fails with the context of
its first flush, which is that of the JSON listing or, for lack of one, of the output. -/
theorem Command.output_failures (c : Command) (d : Disk) :
    (∀ f, (c.plan d).run .unbounded = .error f → ∀ s, (c.plan d).run s = .error f) ∧
    ∀ failed sink, (c.plan d).run .unbounded = .ok (failed, sink) →
      sink.written = String.join ((c.passages d).map Passage.text) ∧
      (∀ n, (∃ s, (c.plan d).run (.bounded n) = .ok (failed, s)) ↔
        sink.written.utf8ByteSize ≤ n) ∧
      (∀ n, n < sink.written.utf8ByteSize → ∃ p f, Passage.Holds (c.passages d) n p ∧
        (c.plan d).run (.bounded n) = .error f ∧ f.top = p.context ∧
        f.chain = [p.context, "disk full"]) ∧
      ∃ f, (c.plan d).run ⟨"", none, false⟩ = .error f ∧
        f.top = (if c.listsJson then "failed to flush JSON output" else "failed to flush output") ∧
        f.chain = [f.top, "cannot flush"] := by
  refine ⟨fun f fails => (c.plan_sends d).run_eq_error fails, fun failed sink done => ?_⟩
  obtain ⟨outcome, sends, written⟩ := (c.plan_sends d).of_run_eq_ok done
  have size : sink.written.utf8ByteSize = Passage.bytes (c.passages d) := by
    rw [written, Passage.bytes]
  rw [size]
  refine ⟨written, fun n => ⟨fun ⟨s, limited⟩ => ?_, fun room => ?_⟩, fun n => Plan.run_short sends,
    ?_⟩
  · by_contra short
    obtain ⟨p, f, -, fails, -⟩ := Plan.run_short sends (Nat.not_le.1 short)
    rw [fails] at limited
    cases limited
  · exact Plan.run_room outcome sends room
  · obtain ⟨f, fails, top, chain⟩ := Plan.run_unflushable sends
    refine ⟨f, fails, ?_, top ▸ chain⟩
    rw [top, firstFlush]
    cases c.listsJson <;> rfl

theorem mixedDisk_found : mixedDisk.found ["c", "b", "a"] = mixedReadings := by
  rw [Disk.found, mixedDisk_features]
  exact mixedDisk_readings

theorem mixedDisk_load : mixedDisk.load "a" = .ok filledDocument := by
  have readings := mixedDisk_readings
  rw [Disk.readings, List.map_cons, mixedReadings, List.cons.injEq, Reading.ofContents,
    Reading.mk.injEq] at readings
  exact readings.1.2

theorem mixedDisk_features_missing :
    mixedDisk.features ["z"] = .error (.missingPath "z") := by
  have missing : mixedDisk.find "z" = .error .notFound := Disk.find_missing (by decide) rfl rfl
  rw [Disk.features, List.mapM_cons, Disk.featuresAt, missing]
  rfl

theorem mixedDisk_output_failures :
    (∀ s, ((Command.check ["z"]).plan mixedDisk).run s = .error (.search (.missingPath "z"))) ∧
    (∃ s, ((Command.check ["c", "b", "a"]).plan mixedDisk).run (.bounded 97) = .ok (1, s)) ∧
    (∃ f, ((Command.check ["c", "b", "a"]).plan mixedDisk).run (.bounded 7) = .error f ∧
      f.chain = ["failed to write check result for b", "disk full"]) ∧
    (∃ f, ((Command.check ["c", "b", "a"]).plan mixedDisk).run (.bounded 96) = .error f ∧
      f.chain = ["failed to write check summary", "disk full"]) ∧
    (∃ f, ((Command.steps ["c", "b", "a"] false).plan mixedDisk).run (.bounded 21) = .error f ∧
      f.chain = ["failed to write step at a:9", "disk full"]) ∧
    (∃ f, ((Command.scenarios ["c", "b", "a"] true false).plan mixedDisk).run (.bounded 47) =
      .error f ∧ f.chain = ["failed to write scenario at a:8", "disk full"]) ∧
    (∃ f, ((Command.scenarios ["c", "b", "a"] true true).plan mixedDisk).run (.bounded 0) =
      .error f ∧ f.chain = ["failed to serialise listing to JSON", "disk full"]) ∧
    (∃ f, ((Command.scenarios ["c", "b", "a"] true true).plan mixedDisk).run
      (.bounded mixedJson.utf8ByteSize) = .error f ∧
        f.chain = ["failed to terminate JSON output with newline", "disk full"]) ∧
    (∃ f, ((Command.scenarios ["c", "b", "a"] true true).plan mixedDisk).run ⟨"", none, false⟩ =
      .error f ∧ f.chain = ["failed to flush JSON output", "cannot flush"]) ∧
    (∃ f, ((Command.render "a").plan mixedDisk).run (.bounded 0) = .error f ∧
      f.chain = ["failed to write rendered feature", "disk full"]) ∧
    ∃ f, ((Command.render "a").plan mixedDisk).run ⟨"", none, false⟩ = .error f ∧
      f.chain = ["failed to flush output", "cannot flush"] := by
  have check := Command.check_writes mixedDisk_features
  rw [mixedDisk_readings] at check
  have steps := Command.steps_writes mixedDisk_features false
  have scenarios := Command.scenarios_writes mixedDisk_features true
  have render : ∃ text, ((Command.render "a").plan mixedDisk).Writes 0 text := by
    simp only [Command.plan, mixedDisk_load]
    exact ⟨_, Plan.writes_ofActions _ 0⟩
  obtain ⟨rendered, render⟩ := render
  -- the passage in which the byte stands is said to be what could not be written
  have cut : ∀ {c : Command} {failed : Nat} {text context : String} (n : Nat),
      (c.plan mixedDisk).Writes failed text →
      (Passage.at? (c.passages mixedDisk) n).map Passage.context = some context →
      ∃ f, (c.plan mixedDisk).run (.bounded n) = .error f ∧ f.chain = [context, "disk full"] := by
    intro c failed text context n writes place
    obtain ⟨sink, done, -⟩ := writes .unbounded Sink.unbounded_takes
    obtain ⟨written, -, short, -⟩ := (Command.output_failures c mixedDisk).2 _ sink done
    obtain ⟨p, found, rfl⟩ := Option.map_eq_some_iff.1 place
    have less : n < sink.written.utf8ByteSize := by
      rw [written]
      exact Passage.holds_lt_bytes (Passage.holds_iff_at?.2 found)
    obtain ⟨q, f, holds, ended, -, chain⟩ := short n less
    rw [Passage.holds_iff_at?, found, Option.some.injEq] at holds
    exact ⟨f, ended, holds ▸ chain⟩
  have stuck : ∀ {c : Command} {failed : Nat} {text : String},
      (c.plan mixedDisk).Writes failed text → ∃ f,
        (c.plan mixedDisk).run ⟨"", none, false⟩ = .error f ∧ f.chain =
          [if c.listsJson then "failed to flush JSON output" else "failed to flush output",
            "cannot flush"] := by
    intro c failed text writes
    obtain ⟨sink, done, -⟩ := writes .unbounded Sink.unbounded_takes
    obtain ⟨f, ended, top, chain⟩ := ((Command.output_failures c mixedDisk).2 _ sink done).2.2.2
    exact ⟨f, ended, top ▸ chain⟩
  have fits : ∀ {c : Command} {failed : Nat} {text : String} {n : Nat},
      (c.plan mixedDisk).Writes failed text → text.utf8ByteSize ≤ n →
      ∃ s, (c.plan mixedDisk).run (.bounded n) = .ok (failed, s) := by
    intro c failed text n writes room
    obtain ⟨sink, done, written⟩ := writes .unbounded Sink.unbounded_takes
    have all : sink.written = text := by rw [written, Sink.unbounded, String.empty_append]
    rw [← all] at room
    exact (((Command.output_failures c mixedDisk).2 _ sink done).2.1 n).2 room
  have missing : ((Command.check ["z"]).plan mixedDisk).run .unbounded =
      .error (.search (.missingPath "z")) := by
    rw [Command.plan, Command.planBatch_eq_error mixedDisk_features_missing]
    rfl
  refine ⟨(Command.output_failures _ mixedDisk).1 _ missing, fits check ?_, cut 7 check ?_,
    cut 96 check ?_, cut 21 steps ?_, cut 47 (scenarios false) ?_, cut 0 (scenarios true) ?_,
    cut _ (scenarios true) ?_, stuck (scenarios true), cut 0 render ?_, stuck render⟩
  · decide +kernel
  all_goals
    simp only [Command.passages, mixedDisk_found, mixedDisk_load]
    decide +kernel

end Gherkin
