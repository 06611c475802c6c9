import Gherkin.Path

/-!
# Disks

A disk has files, directories and links at places; a place is the list of names from the root
down. A path is followed from the current directory, name by name: two dots go to the directory
above, a link leads on from the directory it is in. No more than forty links are followed. A name
has up to 255 bytes, a path up to 4095, and neither has the character U+0000.
-/

namespace Gherkin

/-- Why a path cannot be opened or read. -/
inductive DiskError where
  | notFound
  | notDirectory
  | isDirectory
  | tooManyLinks
  | nameTooLong
  | invalidPath
  | invalidText
  deriving DecidableEq, Repr

/-- The text of the error. -/
def DiskError.message : DiskError → String
  | .notFound => "No such file or directory (os error 2)"
  | .notDirectory => "Not a directory (os error 20)"
  | .isDirectory => "Is a directory (os error 21)"
  | .tooManyLinks => "Too many levels of symbolic links (os error 40)"
  | .nameTooLong => "File name too long (os error 36)"
  | .invalidPath => "file name contained an unexpected NUL byte"
  | .invalidText => "stream did not contain valid UTF-8"

/-- The names from the root down to an entry. -/
abbrev Place := List String

/-- The place that a path names from the root on, if no links are on the way. -/
def Place.ofPath (path : String) : Place :=
  (Path.parts path).filter fun part => part ≠ "" ∧ part ≠ "."

/-- What is at a place. -/
inductive Node where
  | file (bytes : ByteArray)
  | directory
  | link (target : String)

/-- The entries of a disk below its root, and the current directory. -/
structure Disk where
  entries : List (Place × Node)
  current : Place

namespace Disk

/-- A disk without entries. -/
def empty : Disk :=
  ⟨[], []⟩

/-- What is at a place, links not followed. -/
def node? (d : Disk) (p : Place) : Option Node :=
  if p.isEmpty then some .directory else d.entries.lookup p

/-- The disk with an entry at a place that has none. -/
def add (d : Disk) (p : Place) (n : Node) : Disk :=
  if (d.node? p).isSome then d else { d with entries := d.entries ++ [(p, n)] }

/-- The names of the entries in a directory. -/
def names (d : Disk) (p : Place) : List String :=
  d.entries.filterMap fun e =>
    match e.1.getLast? with
    | some name => if e.1.dropLast = p then some name else none
    | none => none

/-- How many bytes a name may have. -/
def maxNameSize : Nat :=
  255

/-- How many bytes a path may have. -/
def maxPathSize : Nat :=
  4095

/-- Where the parts of a path lead from a directory, if no more than `links` links are on the
way. -/
def follow (d : Disk) (links : Nat) (at_ : Place) (parts : List String) :
    Except DiskError Place :=
  match parts with
  | [] => .ok at_
  | part :: rest =>
    match d.node? at_ with
    | none => .error .notFound
    | some (.file _) | some (.link _) => .error .notDirectory
    | some .directory =>
      if part = "" ∨ part = "." then d.follow links at_ rest
      else if part = ".." then d.follow links at_.dropLast rest
      else if maxNameSize < part.utf8ByteSize then .error .nameTooLong
      else match d.node? (at_ ++ [part]) with
        | none => .error .notFound
        | some (.link target) =>
          match links with
          | 0 => .error .tooManyLinks
          | links + 1 =>
            d.follow links (if Path.isAbsolute target then [] else at_) (Path.parts target ++ rest)
        | some _ => d.follow links (at_ ++ [part]) rest
termination_by (links, parts.length)

/-- How many links are followed on the way to one entry. -/
def maxLinks : Nat :=
  40

/-- The disk with an entry at a place; a file gives way to a file. -/
def set (d : Disk) (p : Place) (n : Node) : Disk :=
  match d.node? p, n with
  | some (.file _), .file _ =>
    { d with entries := d.entries.map fun e => if e.1 = p then (p, n) else e }
  | _, _ => d.add p n

/-- The disk with an entry below a directory, and with the directories it takes to get there.
Links on the way are followed; so is one in the place of a file. -/
def putBelow (d : Disk) (at_ : Place) (names : Place) (n : Node) : Disk :=
  match names with
  | [] => d
  | name :: rest =>
    let next := match d.follow maxLinks at_ [name], rest, n with
      | .ok p, _ :: _, _ | .ok p, [], .file _ => p
      | _, _, _ => at_ ++ [name]
    match rest with
    | [] => d.set next n
    | _ => (d.add next .directory).putBelow next rest n

/-- The disk with an entry at a place counted from the root. -/
def put (d : Disk) (p : Place) (n : Node) : Disk :=
  d.putBelow [] p n

/-- What a path leads to, and where that is. -/
def find (d : Disk) (path : String) : Except DiskError (Place × Node) := do
  if path.toList.contains '\x00' then throw .invalidPath
  if path.isEmpty then throw .notFound
  if maxPathSize < path.utf8ByteSize then throw .nameTooLong
  let place ← d.follow maxLinks (if Path.isAbsolute path then [] else d.current) (Path.parts path)
  match d.node? place with
  | some n => return (place, n)
  | none => throw .notFound

/-- What an entry of a directory leads to, and where that is. -/
def findEntry (d : Disk) (directory : Place) (name : String) :
    Except DiskError (Place × Node) := do
  let place ← d.follow maxLinks directory [name]
  match d.node? place with
  | some n => return (place, n)
  | none => throw .notFound

/-- The bytes of the file at a path. -/
def read (d : Disk) (path : String) : Except DiskError ByteArray := do
  match ← d.find path with
  | (_, .file bytes) => return bytes
  | _ => throw .isDirectory

end Disk

end Gherkin
