import Gherkin.Command

/-!
# What plans write

A plan that is carried out into a sink with room for its text writes that text. The text of a plan
on a batch is told file by file: what is logged in between writes nothing.
-/

namespace Gherkin

/-- The text of the actions. -/
def Action.texts (as : List Action) : String :=
  String.join (as.map Action.text)

namespace Action

variable {as bs : List Action}

@[simp] theorem texts_append : texts (as ++ bs) = texts as ++ texts bs := by
  simp [texts]

@[simp] theorem texts_cons (a : Action) : texts (a :: as) = a.text ++ texts as := by
  simp [texts]

@[simp] theorem texts_nil : texts [] = "" := rfl

/-- What is logged is not written. -/
@[simp] theorem texts_log (es : List Event) : texts (es.map .log) = "" := by
  induction es with
  | nil => rfl
  | cons e es ih => simpa [Action.text] using ih

theorem texts_write (f : α → String) (purpose : α → Purpose) (xs : List α) :
    texts (xs.map fun x => .write (f x) (purpose x)) = String.join (xs.map f) := by
  simp [texts, Action.text, Function.comp_def]

theorem texts_flatMap (f : α → List Action) (xs : List α) :
    texts (xs.flatMap f) = String.join (xs.map fun x => texts (f x)) := by
  induction xs with
  | nil => rfl
  | cons x xs ih => simp [ih]

end Action

/-- The sink does not fail while the text is written: it flushes, and it has the room. -/
def Sink.Takes (s : Sink) (text : String) : Prop :=
  s.flushes = true ∧ ∀ room, s.room = some room → text.utf8ByteSize ≤ room

namespace Sink

variable {s : Sink} {text more : String}

theorem unbounded_takes : unbounded.Takes text :=
  ⟨rfl, by simp [unbounded]⟩

/-- A text that a sink takes goes to its end, and the sink takes what is to come after it. -/
theorem Takes.write (h : s.Takes (text ++ more)) :
    ∃ s', s.write text = .ok s' ∧ s'.written = s.written ++ text ∧ s'.Takes more := by
  obtain ⟨flushes, room⟩ := h
  simp only [String.utf8ByteSize_append] at room
  cases hr : s.room with
  | none =>
    refine ⟨{ s with written := s.written ++ text }, ?_, rfl, flushes, by simp [hr]⟩
    simp [Sink.write, hr]
  | some n =>
    have enough := room n hr
    have fits : text.utf8ByteSize ≤ n := by omega
    refine ⟨{ s with written := s.written ++ text, room := some (n - text.utf8ByteSize) }, ?_, rfl,
      flushes, ?_⟩
    · simp [Sink.write, hr, fits]
    · intro left hl
      simp only [Option.some.injEq] at hl
      omega

theorem perform_write {s' : Sink} (h : s.write text = .ok s') (purpose : Purpose) :
    s.perform (.write text purpose) = .ok s' := by
  rw [perform, h]
  rfl

theorem perform_flush (h : s.flushes = true) (purpose : Purpose) :
    s.perform (.flush purpose) = .ok s := by
  rw [perform, flush, if_pos h]
  rfl

theorem Takes.performAll {as : List Action} (h : s.Takes (Action.texts as)) :
    ∃ s', s.performAll as = .ok s' ∧ s'.written = s.written ++ Action.texts as := by
  induction as generalizing s with
  | nil => exact ⟨s, rfl, by simp⟩
  | cons a as ih =>
    rw [Action.texts_cons] at h
    cases a with
    | log event =>
      obtain ⟨s', done, written⟩ := ih (by simpa [Action.text] using h)
      refine ⟨s', ?_, by simpa [Action.text] using written⟩
      simpa [Sink.performAll, perform] using done
    | write text purpose =>
      obtain ⟨s₁, first, written₁, rest⟩ := h.write
      obtain ⟨s', done, written⟩ := ih rest
      refine ⟨s', ?_, by simp [written, written₁, Action.text, String.append_assoc]⟩
      rw [Action.text] at first
      simpa [Sink.performAll, perform_write first] using done
    | flush purpose =>
      obtain ⟨s', done, written⟩ := ih (by simpa [Action.text] using h)
      refine ⟨s', ?_, by simpa [Action.text] using written⟩
      simpa [Sink.performAll, perform_flush h.1] using done

end Sink

namespace Plan

theorem texts_writeJson (entries : List Json) :
    Action.texts (writeJson entries) = (Json.list entries).pretty ++ "\n" := by
  simp [writeJson, Action.text]

/-- Into every sink that does not fail the plan writes the text, and it counts the failures. -/
def Writes (p : Plan) (failed : Nat) (text : String) : Prop :=
  ∀ s : Sink, s.Takes text → ∃ s', p.run s = .ok (failed, s') ∧ s'.written = s.written ++ text

theorem writes_ofActions (as : List Action) (failed : Nat) :
    (ofActions as failed).Writes failed (Action.texts as) := by
  intro s takes
  have all : Action.texts (as ++ [.flush .output]) = Action.texts as := by simp [Action.text]
  rw [← all] at takes ⊢
  obtain ⟨s', done, written⟩ := takes.performAll
  refine ⟨s', ?_, written⟩
  simp only [run, ofActions, done]
  rfl

end Plan

end Gherkin
