import Gherkin.Log

/-!
# Output

What a command does is a list of actions: it logs events, writes texts and flushes. A sink takes
what is written. It may have room for a number of bytes only, and it may fail to flush; the first
action that fails ends the list, and the error says what was being written.
-/

namespace Gherkin

/-- What is written or flushed. -/
inductive Purpose where
  | checkResult (file : String)
  | checkSummary
  | step (file : String) (line : Nat)
  | scenario (file : String) (line : Nat)
  | rendering
  | listing
  | listingEnd
  | listingFlush
  | output
  deriving DecidableEq, Repr

/-- The text that says what could not be done. -/
def Purpose.complaint : Purpose → String
  | .checkResult file => "failed to write check result for " ++ file
  | .checkSummary => "failed to write check summary"
  | .step file line => "failed to write step at " ++ file ++ ":" ++ toString line
  | .scenario file line => "failed to write scenario at " ++ file ++ ":" ++ toString line
  | .rendering => "failed to write rendered feature"
  | .listing => "failed to serialise listing to JSON"
  | .listingEnd => "failed to terminate JSON output with newline"
  | .listingFlush => "failed to flush JSON output"
  | .output => "failed to flush output"

/-- A part of what a command does. -/
inductive Action where
  | log (event : Event)
  | write (text : String) (purpose : Purpose)
  | flush (purpose : Purpose)
  deriving DecidableEq, Repr

/-- What an action writes. -/
def Action.text : Action → String
  | .write text _ => text
  | _ => ""

/-- The events that an action logs. -/
def Action.events : Action → List Event
  | .log event => [event]
  | _ => []

/-- Why a sink fails. -/
inductive SinkError where
  | full
  | unflushable
  deriving DecidableEq, Repr

/-- The text of the error. -/
def SinkError.message : SinkError → String
  | .full => "disk full"
  | .unflushable => "cannot flush"

/-- Takes what is written: it has room for a number of bytes, or for any number if none is
given. -/
structure Sink where
  written : String
  room : Option Nat
  flushes : Bool
  deriving DecidableEq, Repr

namespace Sink

/-- A sink that takes everything. -/
def unbounded : Sink :=
  ⟨"", none, true⟩

/-- A sink for a number of bytes. -/
def bounded (room : Nat) : Sink :=
  ⟨"", some room, true⟩

/-- The sink after a text has been written to it. -/
def write (s : Sink) (text : String) : Except SinkError Sink :=
  match s.room with
  | none => .ok { s with written := s.written ++ text }
  | some room =>
    if text.utf8ByteSize ≤ room then
      .ok { s with written := s.written ++ text, room := some (room - text.utf8ByteSize) }
    else .error .full

/-- The sink after a flush. -/
def flush (s : Sink) : Except SinkError Sink :=
  if s.flushes then .ok s else .error .unflushable

end Sink

/-- An action that fails. -/
structure OutputError where
  purpose : Purpose
  cause : SinkError
  deriving DecidableEq, Repr

/-- The texts of the error and of its cause. -/
def OutputError.chain (e : OutputError) : List String :=
  [e.purpose.complaint, e.cause.message]

namespace Sink

/-- The sink after an action. -/
def perform (s : Sink) : Action → Except OutputError Sink
  | .log _ => .ok s
  | .write text purpose => (s.write text).mapError fun cause => ⟨purpose, cause⟩
  | .flush purpose => s.flush.mapError fun cause => ⟨purpose, cause⟩

/-- The sink after all actions, if none fails. -/
def performAll : Sink → List Action → Except OutputError Sink
  | s, [] => .ok s
  | s, a :: as =>
    match s.perform a with
    | .ok s => s.performAll as
    | .error e => .error e

/-- A sink that takes everything holds in the end what the actions write. -/
theorem performAll_unbounded (as : List Action) (text : String) :
    (⟨text, none, true⟩ : Sink).performAll as
      = .ok ⟨text ++ String.join (as.map Action.text), none, true⟩ := by
  have taken (s : Sink) (f : SinkError → OutputError) : (Except.ok s).mapError f = .ok s := rfl
  induction as generalizing text with
  | nil => simp [performAll]
  | cons a as ih =>
    cases a <;>
      simp [performAll, perform, write, flush, taken, ih, Action.text, String.append_assoc]

end Sink

end Gherkin
