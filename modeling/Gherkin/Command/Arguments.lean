import Gherkin.Command
import Gherkin.Settings

/-!
# Arguments

The arguments of a run name a command, with its options and paths around it. They are read from
left to right, and the first fault that is found ends the reading. The value of an option and a
run of paths are pending until the next option begins, paths after a value begin, or the arguments
end; only then are they judged. So an argument that is not known is found before a value in front
of it that is invalid, and a fault behind the command's name before one in front of it.
-/

namespace Gherkin

/-- Why arguments give no command to carry out. -/
inductive Usage where
  /-- Help is asked for. -/
  | help
  /-- The version is asked for. -/
  | version
  /-- There is nothing in the arguments. -/
  | nothingGiven
  /-- There are options, but no command. -/
  | missingCommand
  /-- A word stands in place of a command's name. -/
  | unknownCommand
  /-- The command has no path. -/
  | missingPath
  /-- An option or a path is more than the command takes. -/
  | unknownArgument
  /-- An option lacks its value, or a path is empty. -/
  | missingValue
  /-- A text stands in place of a level. -/
  | invalidLevel
  /-- An option is given twice. -/
  | repeatedOption
  /-- An option that takes no value has one. -/
  | surplusValue
  deriving DecidableEq, Repr

/-- The names of commands. -/
inductive CommandName where
  | check | render | steps | scenarios
  deriving DecidableEq, Repr

/-- The command's name that a word is. -/
def CommandName.ofText? : String → Option CommandName
  | "check" => some .check
  | "render" => some .render
  | "steps" => some .steps
  | "scenarios" => some .scenarios
  | _ => none

/-- An option without a value that changes a listing. -/
inductive Flag where
  | json | expand
  deriving DecidableEq, Repr

/-- An option. -/
inductive Switch where
  | level
  | flag (flag : Flag)
  | help
  | version
  deriving DecidableEq, Repr

/-- Where arguments stand: in front of the command's name or behind it. -/
inductive Scope where
  | front
  | behind (name : CommandName)
  deriving DecidableEq, Repr

namespace Scope

/-- The option that a long name stands for. -/
def long? : Scope → String → Option Switch
  | _, "log-level" => some .level
  | _, "help" => some .help
  | .front, "version" => some .version
  | .behind .steps, "json" | .behind .scenarios, "json" => some (.flag .json)
  | .behind .scenarios, "expand" => some (.flag .expand)
  | _, _ => none

/-- The option that a letter stands for. -/
def short? : Scope → Char → Option Switch
  | _, 'h' => some .help
  | .front, 'V' => some .version
  | _, _ => none

end Scope

/-- What an argument looks like. -/
inductive ArgumentForm where
  /-- Two hyphens alone: all that follow are words. -/
  | divider
  /-- Two hyphens, a name, and a value after an equals sign if there is one. -/
  | long (name : String) (value : Option String)
  /-- A hyphen and a letter. -/
  | short (letter : Char)
  | word
  deriving DecidableEq, Repr

/-- What a text looks like as an argument. -/
def ArgumentForm.ofText (s : String) : ArgumentForm :=
  match s.toList with
  | ['-', '-'] => .divider
  | '-' :: '-' :: cs =>
    .long (.ofList (cs.takeWhile (· ≠ '='))) ((cs.dropWhile (· ≠ '=')).tail?.map .ofList)
  | '-' :: c :: _ => .short c
  | _ => .word

/-- What is not yet judged. -/
inductive Pending where
  | nothing
  /-- A level is expected, or has come. -/
  | level (value : Option String)
  | paths (paths : List String)
  deriving DecidableEq, Repr

/-- What has been read of the arguments in one scope. -/
structure Arguments where
  level : Option Level
  flags : List Flag
  paths : List String
  pending : Pending
  deriving DecidableEq, Repr

namespace Arguments

/-- Nothing has been read. -/
def empty : Arguments :=
  ⟨none, [], [], .nothing⟩

/-- Takes the value of the option for the level. -/
def setLevel (a : Arguments) (value : String) : Except Usage Arguments :=
  if a.level.isSome then .error .repeatedOption
  else match Level.ofText? value with
    | some level => .ok { a with level := some level }
    | none => .error .invalidLevel

/-- Judges what is pending. -/
def settle (a : Arguments) : Except Usage Arguments :=
  match a.pending with
  | .nothing => .ok a
  | .level none => .error .missingValue
  | .level (some value) => { a with pending := .nothing }.setLevel value
  | .paths paths =>
    if "" ∈ paths then .error .missingValue
    else .ok { a with paths := a.paths ++ paths, pending := .nothing }

/-- Takes an option that has no value attached. -/
def switch (a : Arguments) (s : Switch) : Except Usage Arguments := do
  let a ← a.settle
  match s with
  | .level => return { a with pending := .level none }
  | .flag f =>
    if f ∈ a.flags then throw .repeatedOption
    return { a with flags := f :: a.flags }
  | .help => throw .help
  | .version => throw .version

/-- Takes an option with a long name. -/
def long (a : Arguments) (scope : Scope) (name : String) (value : Option String) :
    Except Usage Arguments :=
  match scope.long? name, value with
  | none, _ => .error .unknownArgument
  | some .level, some value => do (← a.settle).setLevel value
  | some _, some _ => .error .surplusValue
  | some s, none => a.switch s

/-- Takes an option that is a letter. -/
def short (a : Arguments) (scope : Scope) (letter : Char) : Except Usage Arguments :=
  match scope.short? letter with
  | none => .error .unknownArgument
  | some s => a.switch s

/-- A level is expected next. -/
def awaitsLevel (a : Arguments) : Bool :=
  a.pending = .level none

/-- Takes a word as the level that is expected. -/
def takeLevel (a : Arguments) (word : String) : Arguments :=
  { a with pending := .level (some word) }

/-- Takes a path; only one can be rendered. -/
def takePath (a : Arguments) (name : CommandName) (path : String) : Except Usage Arguments :=
  match a.pending with
  | .paths paths =>
    if name = .render then .error .unknownArgument
    else .ok { a with pending := .paths (paths ++ [path]) }
  | _ =>
    if name = .render ∧ a.paths ≠ [] then .error .unknownArgument
    else do return { ← a.settle with pending := .paths [path] }

/-- Reads paths to the end of the arguments. -/
def readPaths (name : CommandName) : Arguments → List String → Except Usage Arguments
  | a, [] => a.settle
  | a, path :: rest => do readPaths name (← a.takePath name path) rest

/-- Reads the arguments behind a command's name. -/
def readBehind (name : CommandName) : Arguments → List String → Except Usage Arguments
  | a, [] => a.settle
  | a, text :: rest =>
    match ArgumentForm.ofText text with
    | .divider => readPaths name a rest
    | .long option value => do readBehind name (← a.long (.behind name) option value) rest
    | .short letter => do readBehind name (← a.short (.behind name) letter) rest
    | .word =>
      if a.awaitsLevel then readBehind name (a.takeLevel text) rest
      else do readBehind name (← a.takePath name text) rest

/-- The command that the arguments behind its name make. -/
def command (a : Arguments) (name : CommandName) : Except Usage Command :=
  match name, a.paths with
  | _, [] => .error .missingPath
  | .check, paths => .ok (.check paths)
  | .render, file :: _ => .ok (.render file)
  | .steps, paths => .ok (.steps paths (.json ∈ a.flags))
  | .scenarios, paths => .ok (.scenarios paths (.expand ∈ a.flags) (.json ∈ a.flags))

end Arguments

/-- A command, and the level of the log if the arguments name one. -/
structure Invocation where
  level : Option Level
  command : Command
  deriving DecidableEq, Repr

namespace Invocation

/-- The word that asks for help in place of a command's name. -/
def helpWord : String :=
  "help"

/-- The word stands where a command's name may stand, and is not taken for anything else. -/
def isName (word : String) : Bool :=
  word = helpWord || (CommandName.ofText? word).isSome

/-- What follows the word that asks for help: nothing, or what the help is about. -/
def helpAbout : List String → Usage
  | [] => .help
  | [word] => if isName word then .help else .unknownCommand
  | _ => .unknownCommand

/-- The arguments end without a command. -/
def withoutCommand (a : Arguments) : Usage :=
  match a.settle with
  | .error e => e
  | .ok a => if a.level.isNone then .nothingGiven else .missingCommand

/-- No command's name stands behind the divider. -/
def behindDivider (a : Arguments) : List String → Usage
  | [] => withoutCommand a
  | word :: _ => if isName word then .unknownArgument else .unknownCommand

/-- The command with the name, and with the arguments behind it. The level named behind it counts
more than one named in front. -/
def ofName (front : Arguments) (name : CommandName) (rest : List String) :
    Except Usage Invocation := do
  let behind ← Arguments.empty.readBehind name rest
  let command ← behind.command name
  let front ← front.settle
  return ⟨behind.level.or front.level, command⟩

/-- Reads arguments, from those in front of a command's name on. -/
def readFront : Arguments → List String → Except Usage Invocation
  | a, [] => .error (withoutCommand a)
  | a, text :: rest =>
    match ArgumentForm.ofText text with
    | .divider => .error (behindDivider a rest)
    | .long option value => do readFront (← a.long .front option value) rest
    | .short letter => do readFront (← a.short .front letter) rest
    | .word =>
      if a.awaitsLevel then readFront (a.takeLevel text) rest
      else match CommandName.ofText? text with
        | some name => ofName a name rest
        | none => .error (if text = helpWord then helpAbout rest else .unknownCommand)

/-- Reads the arguments of a run. -/
def ofArguments (texts : List String) : Except Usage Invocation :=
  readFront .empty texts

end Invocation

end Gherkin
