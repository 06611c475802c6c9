import Gherkin.Session

/-!
# The program

The program takes up what the paths in its arguments lead to, as a disk of its own, and runs the
session on that. Only this is done here; what the session says is decided elsewhere.
-/

namespace Gherkin.Snapshot

/-- The path of a place. -/
def pathOf (place : Place) : String :=
  "/" ++ String.intercalate "/" place

/-- What kind of entry is at a path, links not followed. -/
def kindAt (path : String) : IO (Option IO.FS.FileType) := do
  try
    return some (← ((← IO.currentDir) / path).symlinkMetadata).type
  catch _ => return none

/-- The bytes of the file at a path, if it can be read. -/
def bytesAt (path : String) : IO (Option ByteArray) := do
  try
    return some (← IO.FS.readBinFile path)
  catch _ => return none

/-- Where the link at a path leads. One that leads nowhere leads to a name no entry has. -/
def targetAt (path : String) : IO String := do
  try
    return (← IO.FS.realPath path).toString
  catch _ => return "\x00"

/-- The names of the entries in the directory at a path, if it can be read. -/
def namesAt (path : String) : IO (List String) := do
  try
    return (← ((← IO.currentDir) / path).readDir).toList.map (·.fileName)
  catch _ => return []

/-- Takes up the entry at a place and, if it is a link, what that leads to; with `deep`, also what
is below a directory, files that are no feature files aside. -/
partial def takeUp (deep : Bool) (d : Disk) (place : Place) : IO Disk := do
  let path := pathOf place
  match ← kindAt path with
  | some .dir =>
    let d := d.put place .directory
    if !deep then return d
    (← namesAt path).foldlM (fun d name => do
      let isFile := (← kindAt (path ++ "/" ++ name)) == some .file
      if isFile && !Disk.isFeatureName name then return d
      takeUp deep d (place ++ [name])) d
  | some .file =>
    match ← bytesAt path with
    | some bytes => return d.put place (.file bytes)
    | none => return d
  | some .symlink =>
    if (d.node? place).isSome then return d
    let target ← targetAt path
    takeUp deep (d.put place (.link target)) (.ofPath target)
  | _ => return d

/-- Takes up what the parts of a path lead to, from the directory that is at the place on. -/
def takeUpParts (d : Disk) (place : Place) : List String → IO Disk
  | [] => takeUp true d place
  | part :: rest => do
    let d ← match Path.Component.ofPart? part with
      | some (.name name) => takeUp false d (place ++ [name])
      | _ => pure d
    match d.follow Disk.maxLinks place [part] with
    | .ok place => takeUpParts d place rest
    | .error _ => return d

/-- The part of the real disk that the paths lead to. -/
def ofPaths (paths : List String) : IO Disk := do
  let current := Place.ofPath (← IO.currentDir).toString
  let disk := { Disk.empty with current := current }.put current .directory
  paths.foldlM (fun d path =>
    takeUpParts d (if Path.isAbsolute path then [] else current) (Path.parts path)) disk

end Gherkin.Snapshot

/-- Runs the session of the arguments. -/
def main (arguments : List String) : IO UInt32 := do
  let value ← IO.getEnv Gherkin.Settings.variableName
  let disk ← match Gherkin.Invocation.ofArguments arguments with
    | .ok invocation => Gherkin.Snapshot.ofPaths invocation.command.paths
    | .error _ => pure .empty
  let session := Gherkin.Session.run disk value arguments
  (← IO.getStdout).putStr session.stdout
  (← IO.getStderr).putStr session.stderr
  return session.exit.toUInt32
