import Gherkin.Proofs.Disk.Walking
import Gherkin.Proofs.Path.Sorted
import Mathlib.Tactic.Tauto

/-!
# Feature files that are found

A path stands for itself if it leads to a file, and for the feature files below it if it leads to a
directory (`Disk.StandsFor`); or there is a fault in it (`Disk.Faulty`). The files that are found
for some paths are those that they stand for, in path order and each once; the first path with a
fault ends the search (`Disk.features_found`).
-/

namespace Gherkin

namespace Disk

/-- The names lead from a directory down to a feature file: each is the name of an entry, and the
last one has the extension `feature`. -/
inductive FeatureBelow (d : Disk) : Place → List String → Prop where
  /-- An entry of the directory. -/
  | entry {directory place : Place} {name : String} {bytes : ByteArray}
      (entry : name ∈ d.names directory)
      (leads : d.findEntry directory name = .ok (place, .file bytes))
      (named : Path.HasExtension name "feature") : d.FeatureBelow directory [name]
  /-- An entry further down. -/
  | down {directory next : Place} {name : String} {names : List String} {n : Node}
      (entry : name ∈ d.names directory) (leads : d.findEntry directory name = .ok (next, n))
      (noFile : ∀ bytes, n ≠ .file bytes) (below : d.FeatureBelow next names) :
      d.FeatureBelow directory (name :: names)

/-- The path stands for a file. -/
inductive StandsFor (d : Disk) (path : String) : String → Prop where
  /-- A path that leads to a file stands for itself, whatever its extension. -/
  | itself {place : Place} {bytes : ByteArray} (file : d.find path = .ok (place, .file bytes)) :
      d.StandsFor path path
  /-- A path that leads to a directory stands for the feature files below it: for their names that
  follow the path. -/
  | below {place : Place} {names : List String} (directory : d.find path = .ok (place, .directory))
      (feature : d.FeatureBelow place names) : d.StandsFor path (names.foldl Path.join path)

/-- The fault keeps the files that the path stands for from being found. -/
inductive Faulty (d : Disk) (path : String) : SearchError → Prop where
  /-- The path leads neither to a file nor to a directory. -/
  | missing (noFile : ∀ place bytes, d.find path ≠ .ok (place, .file bytes))
      (noDirectory : ∀ place, d.find path ≠ .ok (place, .directory)) :
      d.Faulty path (.missingPath path)
  /-- There is an obstacle below the directory. -/
  | obstacle {place : Place} {cause : WalkError} (directory : d.find path = .ok (place, .directory))
      (met : d.Met [⟨place, path⟩] (.error cause)) : d.Faulty path (.walk path cause)

variable {d : Disk} {path file : String} {paths files : List String} {e : SearchError}

/-! ## Files below a directory -/

/-- A feature file below the end of a trail is one below its start. -/
theorem Trail.featureBelow {v : Visit} {above trail : List Visit} (h : d.Trail (v :: above) trail) :
    ∀ {w rest names}, trail = w :: rest → d.FeatureBelow w.place names →
      ∃ more, d.FeatureBelow v.place more ∧ more.foldl Path.join v.path =
        names.foldl Path.join w.path := by
  induction h with
  | base =>
    intro w rest names same below
    cases same
    exact ⟨names, below, rfl⟩
  | @down u w' above' name _ enters ih =>
    intro w rest names same below
    cases same
    obtain ⟨n, leads, noFile⟩ := enters.leads
    obtain ⟨more, all, path⟩ := ih rfl (.down enters.entry leads noFile below)
    exact ⟨more, all, by rw [path, List.foldl_cons, enters.path]⟩

theorem FeatureBelow.met {v : Visit} {above : List Visit} {names : List String}
    (h : d.FeatureBelow v.place names) :
    d.Met (v :: above) (.ok (names.foldl Path.join v.path)) := by
  obtain ⟨place, path⟩ := v
  simp only at h
  induction h generalizing path above with
  | entry entry leads named => exact ⟨_, _, .base, .feature entry leads named⟩
  | @down directory next name names n entry leads noFile _ ih =>
    have enters : d.Enters ⟨directory, path⟩ name ⟨next, Path.join path name⟩ :=
      ⟨entry, ⟨n, leads, noFile⟩, rfl⟩
    exact met_iff.2 ⟨name, .inr ⟨_, _, _, rfl, enters, ih _⟩⟩

/-- The files that are met are the feature files below the directory. -/
theorem met_ok_iff {v : Visit} {above : List Visit} :
    d.Met (v :: above) (.ok file) ↔
      ∃ names, d.FeatureBelow v.place names ∧ names.foldl Path.join v.path = file := by
  constructor
  · rintro ⟨trail, name, h, shows⟩
    cases shows with
    | feature entry leads named => exact h.featureBelow rfl (.entry entry leads named)
  · rintro ⟨names, below, rfl⟩
    exact below.met

/-! ## One path -/

theorem lists_of_find {place : Place} (directory : d.find path = .ok (place, .directory)) :
    Lists (d.Met [⟨place, path⟩]) (d.walk d.maxDepth [] ⟨place, path⟩) := by
  have there : place ∈ d.places := by
    rw [find_eq] at directory
    exact mem_places (node?_of_bind directory)
  exact walk_met (left_start there)

theorem standsFor_iff_of_file {place : Place} {bytes : ByteArray}
    (h : d.find path = .ok (place, .file bytes)) : d.StandsFor path file ↔ file = path := by
  constructor
  · intro stands
    cases stands with
    | itself => rfl
    | below directory => simp [h] at directory
  · rintro rfl
    exact .itself h

theorem standsFor_iff_of_directory {place : Place} (h : d.find path = .ok (place, .directory)) :
    d.StandsFor path file ↔ d.Met [⟨place, path⟩] (.ok file) := by
  rw [met_ok_iff]
  constructor
  · intro stands
    cases stands with
    | itself file => simp [h] at file
    | below directory feature =>
      rw [h] at directory
      cases directory
      exact ⟨_, feature, rfl⟩
  · rintro ⟨names, feature, rfl⟩
    exact .below h feature

theorem faulty_iff_of_directory {place : Place} (h : d.find path = .ok (place, .directory)) :
    d.Faulty path e ↔ ∃ cause, d.Met [⟨place, path⟩] (.error cause) ∧ e = .walk path cause := by
  constructor
  · intro faulty
    cases faulty with
    | missing _ noDirectory => exact absurd h (noDirectory place)
    | obstacle directory met =>
      rw [h] at directory
      cases directory
      exact ⟨_, met, rfl⟩
  · rintro ⟨cause, met, rfl⟩
    exact .obstacle h met

/-- The result is the files that the path stands for, if there is no fault in it, or else a
fault. -/
def Answers (d : Disk) (path : String) : Except SearchError (List String) → Prop
  | .ok files => (∀ file, file ∈ files ↔ d.StandsFor path file) ∧ ∀ e, ¬ d.Faulty path e
  | .error e => d.Faulty path e

theorem answers_file {place : Place} {bytes : ByteArray}
    (found : d.find path = .ok (place, .file bytes)) : d.Answers path (.ok [path]) := by
  refine ⟨fun file => ?_, fun e faulty => ?_⟩
  · rw [standsFor_iff_of_file found, List.mem_singleton]
  · cases faulty with
    | missing noFile => exact noFile place bytes found
    | obstacle directory => simp [found] at directory

theorem answers_walked {place : Place} (found : d.find path = .ok (place, .directory))
    (walked : d.walk d.maxDepth [] ⟨place, path⟩ = .ok files) : d.Answers path (.ok files) := by
  have lists := lists_of_find found
  rw [walked] at lists
  refine ⟨fun file => ?_, fun e faulty => ?_⟩
  · rw [standsFor_iff_of_directory found, lists]
    simp
  · obtain ⟨cause, met, -⟩ := (faulty_iff_of_directory found).1 faulty
    obtain ⟨file, -, same⟩ := (lists _).1 met
    cases same

theorem answers_featuresAt (d : Disk) (path : String) : d.Answers path (d.featuresAt path) := by
  unfold featuresAt
  split
  · next found => exact answers_file found
  · next place found =>
    split
    · next walked => exact answers_walked found walked
    · next cause walked =>
      have lists := lists_of_find found
      rw [walked] at lists
      exact .obstacle found lists
  · next noFile noDirectory => exact .missing noFile noDirectory

theorem featuresAt_eq_ok (h : d.featuresAt path = .ok files) :
    (∀ file, file ∈ files ↔ d.StandsFor path file) ∧ ∀ e, ¬ d.Faulty path e := by
  have answers := d.answers_featuresAt path
  rwa [h] at answers

theorem featuresAt_eq_error (h : d.featuresAt path = .error e) : d.Faulty path e := by
  have answers := d.answers_featuresAt path
  rwa [h] at answers

/-! ## Several paths -/

/-- The files are those that the paths stand for. -/
structure Found (d : Disk) (paths files : List String) : Prop where
  /-- They are in path order, and no two are equal as paths. -/
  ascending : Path.Ascending files
  /-- Up to spelling, they are the files that some path stands for. -/
  members : ∀ p, (∃ q ∈ files, Path.components q = Path.components p) ↔
    ∃ a ∈ paths, ∃ q, d.StandsFor a q ∧ Path.components q = Path.components p
  /-- Each is spelled as it is found first: by the first of the paths that stand for it, and first
  among what is found by that one. -/
  spelled : ∀ q ∈ files, ∃ before a after listed, paths = before ++ a :: after ∧
    d.StandsFor a q ∧ d.featuresAt a = .ok listed ∧
    listed.find? (Path.HasComponents (Path.components q)) = some q ∧
    ∀ b ∈ before, ∀ r, d.StandsFor b r → Path.components r ≠ Path.components q

theorem features_eq_ok_iff : d.features paths = .ok files ↔
    ∃ found, List.Forall₂ (fun a listed => d.featuresAt a = .ok listed) paths found ∧
      Path.sorted found.flatten = files := by
  rw [features, map_eq_ok_iff]
  simp only [mapM_eq_ok_iff]

theorem mem_flatten_iff {found : List (List String)}
    (h : List.Forall₂ (fun a listed => d.featuresAt a = .ok listed) paths found) :
    file ∈ found.flatten ↔ ∃ a ∈ paths, d.StandsFor a file := by
  rw [List.mem_flatten]
  constructor
  · rintro ⟨listed, mem, inside⟩
    obtain ⟨a, ha, answer⟩ := exists_of_mem_right h mem
    exact ⟨a, ha, ((featuresAt_eq_ok answer).1 file).1 inside⟩
  · rintro ⟨a, ha, stands⟩
    obtain ⟨listed, mem, answer⟩ := exists_of_mem_right h.flip ha
    exact ⟨listed, mem, ((featuresAt_eq_ok answer).1 file).2 stands⟩

theorem found_of_features (h : d.features paths = .ok files) : d.Found paths files := by
  obtain ⟨found, answers, rfl⟩ := features_eq_ok_iff.1 h
  refine ⟨Path.ascending_sorted _, fun p => ?_, fun q hq => ?_⟩
  · have listed : Path.components p ∈ (Path.sorted found.flatten).map Path.components ↔
        Path.components p ∈ found.flatten.map Path.components := Path.mem_map_components_sorted
    rw [List.mem_map, List.mem_map] at listed
    rw [listed]
    simp only [mem_flatten_iff answers]
    tauto
  · have kept := Path.find?_of_mem_sorted hq
    obtain ⟨-, before, ahead, rest, after, cut, none, other⟩ :=
      List.find?_flatten_eq_some_iff.1 kept
    rw [cut] at answers
    obtain ⟨first, a, last, rfl, firsts, answer⟩ := exists_cut_of_cut_right answers
    have listed := (featuresAt_eq_ok answer).1
    refine ⟨first, a, last, _, rfl, (listed q).1 (by simp), answer, ?_, ?_⟩
    · rw [List.find?_eq_some_iff_append]
      exact ⟨by simp [Path.HasComponents], ahead, rest, rfl, other⟩
    · intro b hb r stands same
      obtain ⟨group, hgroup, inside⟩ :=
        List.mem_flatten.1 ((mem_flatten_iff firsts).2 ⟨b, hb, stands⟩)
      simpa [Path.HasComponents, same] using none group hgroup r inside

/-- A search fails with the first path that has a fault. -/
theorem faulty_of_features (h : d.features paths = .error e) :
    ∃ before a after, paths = before ++ a :: after ∧ d.featuresAt a = .error e ∧ d.Faulty a e ∧
      ∀ b ∈ before, ∀ e, ¬ d.Faulty b e := by
  have failed : paths.mapM d.featuresAt = .error e := by
    rw [← failure?_eq_some_iff] at h ⊢
    rwa [features, failure?_map] at h
  obtain ⟨before, a, after, cut, answer, fine⟩ := mapM_eq_error_iff.1 failed
  refine ⟨before, a, after, cut, answer, featuresAt_eq_error answer, fun b hb => ?_⟩
  obtain ⟨listed, found⟩ := fine b hb
  exact (featuresAt_eq_ok found).2

/-- A search fails if there is a fault in one of the paths. -/
theorem features_fails_iff :
    (∃ e, d.features paths = .error e) ↔ ∃ a ∈ paths, ∃ e, d.Faulty a e := by
  constructor
  · rintro ⟨e, h⟩
    obtain ⟨before, a, after, rfl, -, faulty, -⟩ := faulty_of_features h
    exact ⟨a, by simp, e, faulty⟩
  · rintro ⟨a, ha, e, faulty⟩
    rw [← not_exists_ok_iff]
    rintro ⟨files, h⟩
    obtain ⟨found, answers, -⟩ := features_eq_ok_iff.1 h
    obtain ⟨listed, -, answer⟩ := exists_of_mem_right answers.flip ha
    exact (featuresAt_eq_ok answer).2 e faulty

/-- The paths in another order, or more than once, stand for the same files up to spelling. -/
theorem features_same_paths {others : List String} (h : d.features paths = .ok files)
    (same : ∀ a, a ∈ others ↔ a ∈ paths) :
    ∃ files', d.features others = .ok files' ∧
      files'.map Path.components = files.map Path.components := by
  have found : ∃ files', d.features others = .ok files' := by
    by_contra fails
    rw [not_exists_ok_iff, features_fails_iff] at fails
    obtain ⟨a, ha, faulty⟩ := fails
    obtain ⟨e, failed⟩ := features_fails_iff.2 ⟨a, (same a).1 ha, faulty⟩
    rw [h] at failed
    cases failed
  obtain ⟨files', h'⟩ := found
  have those := found_of_features h
  have these := found_of_features h'
  refine ⟨files', h', these.ascending.map_components_eq those.ascending fun cs => ?_⟩
  have member : ∀ {paths files}, d.Found paths files → (cs ∈ files.map Path.components ↔
      ∃ a ∈ paths, ∃ q, d.StandsFor a q ∧ Path.components q = cs) := by
    intro paths files all
    rw [List.mem_map]
    constructor
    · rintro ⟨q, hq, rfl⟩
      exact (all.members q).1 ⟨q, hq, rfl⟩
    · rintro ⟨a, ha, q, stands, rfl⟩
      exact (all.members q).2 ⟨a, ha, q, stands, rfl⟩
  rw [member these, member those]
  simp only [same]

/-- **Discovery.** A search that succeeds finds the files that the paths stand for, in path order,
each once and in the spelling found first; the paths in another order, or more than once, stand for
the same files. A search fails if there is a fault in one of the paths, and then with a fault in
the first such path. -/
theorem features_found (d : Disk) (paths : List String) :
    (∀ files, d.features paths = .ok files → d.Found paths files ∧
      ∀ others, (∀ a, a ∈ others ↔ a ∈ paths) → ∃ files', d.features others = .ok files' ∧
        files'.map Path.components = files.map Path.components) ∧
    ((∃ e, d.features paths = .error e) ↔ ∃ a ∈ paths, ∃ e, d.Faulty a e) ∧
    ∀ e, d.features paths = .error e → ∃ before a after, paths = before ++ a :: after ∧
      d.featuresAt a = .error e ∧ d.Faulty a e ∧ ∀ b ∈ before, ∀ e, ¬ d.Faulty b e :=
  ⟨fun _ h => ⟨found_of_features h, fun _ same => features_same_paths h same⟩,
    features_fails_iff, fun _ h => faulty_of_features h⟩

end Disk

/-- A feature file in a directory, and one in a directory below it, beside a file with another
extension and a file whose name is its extension. -/
def nestedDisk : Disk :=
  ⟨[(["a"], .directory), (["a", "b.feature"], .file ⟨#[]⟩), (["a", "c"], .directory),
    (["a", "c", "d.feature"], .file ⟨#[]⟩), (["a", "c", "e.txt"], .file ⟨#[]⟩),
    (["a", "c", ".feature"], .file ⟨#[]⟩)], []⟩

theorem nestedDisk_find_directory : nestedDisk.find "a" = .ok (["a"], .directory) :=
  Disk.find_name (by decide) rfl rfl (by simp)

theorem nestedDisk_find_missing : nestedDisk.find "z" = .error .notFound :=
  Disk.find_missing (by decide) rfl rfl

theorem nestedDisk_find_file :
    nestedDisk.find "a//b.feature" = .ok (["a", "b.feature"], .file ⟨#[]⟩) := by
  have text : "a//b.feature".toList.contains '\x00' = false := by decide +kernel
  have nonempty : "a//b.feature".isEmpty = false := by decide +kernel
  have short : ¬ Disk.maxPathSize < "a//b.feature".utf8ByteSize := by decide +kernel
  have relative : Path.isAbsolute "a//b.feature" = false := by decide +kernel
  have parts : Path.parts "a//b.feature" = ["a", "", "b.feature"] := by decide +kernel
  have names : ¬ Disk.maxNameSize < "a".utf8ByteSize ∧
      ¬ Disk.maxNameSize < "b.feature".utf8ByteSize := by decide +kernel
  have root : nestedDisk.node? [] = some .directory := rfl
  have directory : nestedDisk.node? ["a"] = some .directory := rfl
  have file : nestedDisk.node? ["a", "b.feature"] = some (.file ⟨#[]⟩) := rfl
  have led : nestedDisk.follow Disk.maxLinks [] ["a", "", "b.feature"] =
      .ok ["a", "b.feature"] := by
    simp [Disk.follow, names, root, directory, file]
  rw [Disk.find_eq, Disk.lead, text, nonempty, if_neg short, relative, parts]
  simp only [Bool.false_eq_true, if_false]
  rw [show nestedDisk.current = [] from rfl, led]
  rfl

theorem nestedDisk_walk :
    nestedDisk.walk nestedDisk.maxDepth [] ⟨["a"], "a"⟩ = .ok ["a/b.feature", "a/c/d.feature"] := by
  have depth : nestedDisk.maxDepth = 47 + 2 := rfl
  have upper : nestedDisk.names ["a"] = ["b.feature", "c"] := by decide +kernel
  have lower : nestedDisk.names ["a", "c"] = ["d.feature", "e.txt", ".feature"] := by
    decide +kernel
  have file : nestedDisk.findEntry ["a"] "b.feature" = .ok (["a", "b.feature"], .file ⟨#[]⟩) :=
    Disk.findEntry_name (by decide +kernel) rfl rfl (by simp)
  have directory : nestedDisk.findEntry ["a"] "c" = .ok (["a", "c"], .directory) :=
    Disk.findEntry_name (by decide +kernel) rfl rfl (by simp)
  have files : ∀ name ∈ ["d.feature", "e.txt", ".feature"],
      nestedDisk.findEntry ["a", "c"] name = .ok (["a", "c", name], .file ⟨#[]⟩) := by
    intro name mem
    simp only [List.mem_cons, List.not_mem_nil, or_false] at mem
    rcases mem with rfl | rfl | rfl <;>
      exact Disk.findEntry_name (by decide +kernel) rfl rfl (by simp)
  have named : ["b.feature", "d.feature", "e.txt", ".feature"].map Disk.isFeatureName =
      [true, true, false, false] := by decide +kernel
  have paths : Path.join "a" "b.feature" = "a/b.feature" ∧ Path.join "a" "c" = "a/c" ∧
      Path.join "a/c" "d.feature" = "a/c/d.feature" := by decide +kernel
  simp only [List.map_cons, List.map_nil, List.cons.injEq, and_true] at named
  simp only [List.forall_mem_cons] at files
  simp only [depth, Disk.walk_succ, Disk.explore, upper, lower, file, directory, files, named,
    paths, List.mapM_cons, List.mapM_nil]
  rfl

theorem nestedDisk_features :
    nestedDisk.features ["a//b.feature", "a"] = .ok ["a//b.feature", "a/c/d.feature"] := by
  have sorted : Path.sorted ["a//b.feature", "a/b.feature", "a/c/d.feature"] =
      ["a//b.feature", "a/c/d.feature"] := by decide +kernel
  have directory : nestedDisk.featuresAt "a" = .ok ["a/b.feature", "a/c/d.feature"] := by
    rw [Disk.featuresAt, nestedDisk_find_directory]
    simp only [nestedDisk_walk]
  rw [Disk.features, List.mapM_cons, List.mapM_cons, List.mapM_nil,
    Disk.featuresAt_of_find nestedDisk_find_file, directory, ← sorted]
  rfl

theorem nestedDisk_features_found :
    nestedDisk.Found ["a//b.feature", "a"] ["a//b.feature", "a/c/d.feature"] ∧
    (∃ files, nestedDisk.features ["a", "a//b.feature", "a"] = .ok files ∧
      files.map Path.components =
        [[.name "a", .name "b.feature"], [.name "a", .name "c", .name "d.feature"]]) ∧
    (∀ name ∈ ["e.txt", ".feature"], ¬ nestedDisk.StandsFor "a" ("a/c/" ++ name)) ∧
    ∃ e, nestedDisk.features ["a", "z"] = .error e := by
  obtain ⟨found, again⟩ :=
    (nestedDisk.features_found ["a//b.feature", "a"]).1 _ nestedDisk_features
  obtain ⟨files, searched, same⟩ := again ["a", "a//b.feature", "a"] (by simp [or_comm])
  have components : ["a//b.feature", "a/c/d.feature"].map Path.components =
      [[.name "a", .name "b.feature"], [.name "a", .name "c", .name "d.feature"]] := by
    decide +kernel
  have faulty : nestedDisk.Faulty "z" (.missingPath "z") :=
    .missing (by simp [nestedDisk_find_missing]) (by simp [nestedDisk_find_missing])
  have others : ∀ name ∈ ["e.txt", ".feature"], ∀ file ∈ ["a//b.feature", "a/c/d.feature"],
      Path.components file ≠ Path.components ("a/c/" ++ name) := by decide +kernel
  have passed : ∀ name ∈ ["e.txt", ".feature"], ¬ nestedDisk.StandsFor "a" ("a/c/" ++ name) := by
    intro name mem stands
    obtain ⟨file, listed, equal⟩ := (found.members _).2 ⟨"a", by simp, _, stands, rfl⟩
    exact others name mem file listed equal
  exact ⟨found, ⟨files, searched, same.trans components⟩, passed,
    (nestedDisk.features_found ["a", "z"]).2.1.2 ⟨"z", by simp, _, faulty⟩⟩

end Gherkin
