/-!
# Paths

A path is a text whose parts are separated by slashes. Two paths are equal if their components
are: empty parts do not count, nor do dots except one in front. Paths are ordered by components,
from the first on; the root comes before a leading dot, that before two dots, and those before
names, which go by their code points.
-/

namespace Gherkin

namespace Path

/-- The parts of a text between separators. -/
def split (separator : Char) : List Char → List (List Char)
  | [] => [[]]
  | c :: cs =>
    if c = separator then [] :: split separator cs
    else match split separator cs with
      | [] => [[c]]
      | part :: parts => (c :: part) :: parts

/-- The parts of a path between slashes. -/
def parts (path : String) : List String :=
  (split '/' path.toList).map .ofList

/-- The path begins at the root. -/
def isAbsolute (path : String) : Bool :=
  path.toList.head? == some '/'

/-- A part of a path that counts. -/
inductive Component where
  | root
  | here
  | up
  | name (name : String)
  deriving DecidableEq, Repr

namespace Component

/-- The place of the component's sort in the order. -/
def rank : Component → Nat
  | .root => 0
  | .here => 1
  | .up => 2
  | .name _ => 3

/-- The order of components. -/
def compare : Component → Component → Ordering
  | .name a, .name b => compareOfLessAndEq a b
  | a, b => compareOfLessAndEq a.rank b.rank

/-- The component that a part not in front stands for. -/
def ofPart? (part : String) : Option Component :=
  if part = "" ∨ part = "." then none
  else if part = ".." then some .up
  else some (.name part)

end Component

/-- The components of a path. -/
def components (path : String) : List Component :=
  let all := parts path
  let rest := all.filterMap Component.ofPart?
  if isAbsolute path then .root :: rest
  else if all.head? = some "." then .here :: rest
  else rest

/-- The order of lists of components. -/
def compareComponents : List Component → List Component → Ordering
  | [], [] => .eq
  | [], _ :: _ => .lt
  | _ :: _, [] => .gt
  | a :: as, b :: bs => (a.compare b).then (compareComponents as bs)

/-- The order of paths. -/
def compare (p q : String) : Ordering :=
  compareComponents (components p) (components q)

/-- Puts a path into an ascending list, unless an equal one is in it. -/
def insert (p : String) : List String → List String
  | [] => [p]
  | q :: qs =>
    match compare p q with
    | .lt => p :: q :: qs
    | .eq => q :: qs
    | .gt => q :: insert p qs

/-- The ascending list of the paths; of equal ones the first is kept. -/
def sorted (paths : List String) : List String :=
  paths.foldl (fun found p => insert p found) []

/-- The path of an entry of a directory. -/
def join (directory entry : String) : String :=
  if directory.isEmpty || directory.toList.getLast? == some '/' then directory ++ entry
  else directory ++ "/" ++ entry

/-- The extension of a file name: what follows its last dot, unless the dot is in front. -/
def extension? (name : String) : Option String :=
  match (split '.' name.toList).reverse with
  | last :: before :: more =>
    if before.isEmpty && more.isEmpty then none else some (.ofList last)
  | _ => none

end Path

end Gherkin
