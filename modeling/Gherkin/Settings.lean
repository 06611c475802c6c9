import Gherkin.Log

/-!
# Settings

The level of the log comes from a variable of the environment, and from the command line if that
names one. A variable that is missing or blank leaves the level at warnings.
-/

namespace Gherkin

/-- A text that is no level. -/
structure InvalidLevel where
  text : String
  deriving DecidableEq, Repr

/-- The text of the error. -/
def InvalidLevel.message (e : InvalidLevel) : String :=
  "invalid configuration: unknown log level '" ++ e.text
    ++ "', expected one of: trace, debug, info, warn, error"

/-- Reads a level. -/
def Level.read (s : String) : Except InvalidLevel Level :=
  match ofText? s with
  | some level => .ok level
  | none => .error ⟨s⟩

/-- What a run is set to. -/
structure Settings where
  level : Level
  deriving DecidableEq, Repr

namespace Settings

/-- The variable of the environment that holds the level. -/
def variableName : String :=
  "REQTRACE_LOG_LEVEL"

/-- The settings if nothing is said. -/
def standard : Settings :=
  ⟨.warn⟩

/-- The settings for a value of the variable. -/
def ofVariable (value : Option String) : Except InvalidLevel Settings :=
  match value with
  | some v => if Text.isAllBlank v then .ok standard else return ⟨← Level.read v⟩
  | none => .ok standard

/-- The settings after the command line has named a level, if it does. -/
def withLevel (s : Settings) (level : Option Level) : Settings :=
  ⟨level.getD s.level⟩

end Settings

end Gherkin
