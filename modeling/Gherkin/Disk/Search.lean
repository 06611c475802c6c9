import Gherkin.Disk

/-!
# The search for feature files

A path that leads to a file stands for itself, whatever its name. A path that leads to a directory
stands for the files below it whose extension is `feature`; links are followed, and one that leads
back to a directory on the way to it is an error. The files found are listed in path order, equal
paths once.

An entry of a directory is resolved from that directory: it may have forty links of its own, and the
size of its whole path is not looked at. So the walk can list a path that `Disk.find` refuses, if
there are more links on it than that or it is too long.
-/

namespace Gherkin

/-- Why a directory cannot be searched. -/
inductive WalkError where
  /-- The link at `path` leads to a directory on the way to it. -/
  | loop (path ancestor : String)
  /-- The entry at `path` leads nowhere. -/
  | entry (path : String) (cause : DiskError)
  deriving DecidableEq, Repr

/-- The text of the error. -/
def WalkError.message : WalkError → String
  | .loop path ancestor =>
    "File system loop found: " ++ path ++ " points to an ancestor " ++ ancestor
  | .entry path cause => "IO error for operation on " ++ path ++ ": " ++ cause.message

/-- Why the search for feature files fails. -/
inductive SearchError where
  /-- The path leads to neither a file nor a directory. -/
  | missingPath (path : String)
  /-- The directory at the path cannot be searched. -/
  | walk (path : String) (cause : WalkError)
  deriving DecidableEq, Repr

namespace SearchError

/-- The text of the error. -/
def message : SearchError → String
  | .missingPath path => "no such file or directory: " ++ path
  | .walk path cause => "failed to walk " ++ path ++ ": " ++ cause.message

/-- The texts of the error and of its causes, the outermost first. -/
def chain (e : SearchError) : List String :=
  match e with
  | .missingPath _ => [e.message]
  | .walk _ (.loop path ancestor) => [e.message, (WalkError.loop path ancestor).message]
  | .walk _ (.entry path cause) =>
    [e.message, (WalkError.entry path cause).message, cause.message]

end SearchError

/-- A directory that is being searched: where it is, and the path it was reached by. -/
structure Visit where
  place : Place
  path : String
  deriving DecidableEq, Repr

namespace Disk

/-- The name is that of a feature file. -/
def isFeatureName (name : String) : Bool :=
  Path.extension? name == some "feature"

/-- The feature files below the directory that is visited, which lies below those in `above`, the
nearest first. At most `depth` directories are gone down. -/
def walk (d : Disk) (depth : Nat) (above : List Visit) (visit : Visit) :
    Except WalkError (List String) :=
  match depth with
  | 0 => .ok []
  | depth + 1 =>
    List.flatten <$> (d.names visit.place).mapM fun name =>
      let path := Path.join visit.path name
      match d.findEntry visit.place name with
      | .error e => .error (.entry path e)
      | .ok (_, .file _) => .ok (if isFeatureName name then [path] else [])
      | .ok (place, _) =>
        let isLink := place != visit.place ++ [name]
        match (visit :: above).find? fun v => isLink && v.place == place with
        | some v => .error (.loop path v.path)
        | none => d.walk depth (visit :: above) ⟨place, path⟩

/-- More directories than any walk goes down: each link that is followed leads to a directory that
is not on the way to it, and below it the names of a place get longer. -/
def maxDepth (d : Disk) : Nat :=
  (d.entries.length + 1) * (d.entries.length + 1)

/-- The feature files that a path stands for. -/
def featuresAt (d : Disk) (path : String) : Except SearchError (List String) :=
  match d.find path with
  | .ok (_, .file _) => .ok [path]
  | .ok (place, .directory) =>
    match d.walk d.maxDepth [] ⟨place, path⟩ with
    | .ok files => .ok files
    | .error e => .error (.walk path e)
  | _ => .error (.missingPath path)

/-- The feature files that the paths stand for, in path order, equal paths once. -/
def features (d : Disk) (paths : List String) : Except SearchError (List String) :=
  (fun found => Path.sorted found.flatten) <$> paths.mapM d.featuresAt

end Disk

end Gherkin
