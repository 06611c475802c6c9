import Gherkin.Command.Arguments

/-!
# Sessions

A session is one run of the program, from its arguments and the variable of the environment to
what it leaves behind. The exit status is 0 if every file was processed, 1 if some file failed or
the command ended with a fault, and 2 if the arguments or the settings are invalid.
-/

namespace Gherkin

/-- What a run of the program leaves behind. -/
structure Session where
  exit : Nat
  stdout : String
  stderr : String
  deriving DecidableEq, Repr

/-- The version of the program. -/
def version : String :=
  "0.3.0"

namespace Usage

/-- How the program is called. -/
def summary : String :=
  "Check and list Gherkin feature files.\n\n"
    ++ "Usage: reqtrace [--log-level LEVEL] check PATHS...\n"
    ++ "       reqtrace [--log-level LEVEL] render FILE\n"
    ++ "       reqtrace [--log-level LEVEL] steps [--json] PATHS...\n"
    ++ "       reqtrace [--log-level LEVEL] scenarios [--expand] [--json] PATHS...\n"

/-- What is wrong with the arguments, if anything is. -/
def complaint : Usage → String
  | .help | .version | .nothingGiven => ""
  | .missingCommand => "error: a command is required\n\n"
  | .unknownCommand => "error: unrecognized command\n\n"
  | .missingPath => "error: a path is required\n\n"
  | .unknownArgument => "error: unexpected argument\n\n"
  | .missingValue => "error: a value is required\n\n"
  | .invalidLevel => "error: unknown log level\n\n"
  | .repeatedOption => "error: an option cannot be used twice\n\n"
  | .surplusValue => "error: an option takes no value\n\n"

/-- The session of arguments that give no command. -/
def session : Usage → Session
  | .help => ⟨0, summary, ""⟩
  | .version => ⟨0, "reqtrace " ++ Gherkin.version ++ "\n", ""⟩
  | u => ⟨2, "", u.complaint ++ summary⟩

end Usage

namespace Session

/-- The session of a command that is carried out. -/
def ofPlan (settings : Settings) (p : Plan) : Session :=
  let log (last : List Event) := settings.level.log (.started version :: p.events ++ last)
  match p.outcome with
  | .ok 0 => ⟨0, p.text, log []⟩
  | .ok failed => ⟨1, p.text, log [.filesFailed failed]⟩
  | .error fault => ⟨1, p.text, log [.commandFailed fault.message]⟩

/-- The session for the value of the variable and for arguments, on what is on the disk. -/
def run (d : Disk) (value : Option String) (arguments : List String) : Session :=
  match Invocation.ofArguments arguments with
  | .error u => u.session
  | .ok invocation =>
    match Settings.ofVariable value with
    | .error e => ⟨2, "", Settings.standard.level.log [.settingsInvalid e.message]⟩
    | .ok settings => ofPlan (settings.withLevel invocation.level) (invocation.command.plan d)

end Session

end Gherkin
