import Gherkin.Proofs.Disk.SameTree
import Gherkin.Proofs.Path.Extension
import Gherkin.Proofs.Results
import Mathlib.Data.List.Count

/-!
# Going down a directory

A directory is gone down by its entries, links followed (`Disk.Trail`). On a trail stand feature
files, and what keeps a directory from being searched: an entry that leads nowhere, or a link to a
directory that is on the trail already (`Disk.Shows`). The walk lists all feature files that are met
this way, or it ends with such an obstacle (`Disk.walk_met`). It goes down as many directories as
there are: with each link that is not an obstacle there is one directory less that the trail has
not been to, and without links the places on the trail get longer (`Disk.left`).
-/

namespace Gherkin

namespace Disk

theorem isFeatureName_iff {name : String} :
    isFeatureName name = true ↔ Path.HasExtension name "feature" := by
  rw [isFeatureName, beq_iff_eq, Path.extension?_eq_some_iff]

/-- The entry with the name leads from the visited directory to something that is no file. -/
structure Enters (d : Disk) (v : Visit) (name : String) (w : Visit) : Prop where
  entry : name ∈ d.names v.place
  leads : ∃ n, d.findEntry v.place name = .ok (w.place, n) ∧ ∀ bytes, n ≠ .file bytes
  path : w.path = Path.join v.path name

/-- The directories from the first of `base` on, the nearest first, each entered from the one above
it. -/
inductive Trail (d : Disk) (base : List Visit) : List Visit → Prop where
  | base : d.Trail base base
  | down {v w : Visit} {above : List Visit} {name : String} (trail : d.Trail base (v :: above))
      (enters : d.Enters v name w) : d.Trail base (w :: v :: above)

/-- What the entry with the name shows in the nearest directory of a trail: a feature file, or why
the directories cannot be searched. -/
inductive Shows (d : Disk) (name : String) : List Visit → Except WalkError String → Prop where
  /-- The entry leads to a file and has the extension of a feature file. -/
  | feature {v : Visit} {above : List Visit} {place : Place} {bytes : ByteArray}
      (entry : name ∈ d.names v.place) (leads : d.findEntry v.place name = .ok (place, .file bytes))
      (named : Path.HasExtension name "feature") :
      d.Shows name (v :: above) (.ok (Path.join v.path name))
  /-- The entry leads nowhere. -/
  | nowhere {v : Visit} {above : List Visit} {cause : DiskError} (entry : name ∈ d.names v.place)
      (leads : d.findEntry v.place name = .error cause) :
      d.Shows name (v :: above) (.error (.entry (Path.join v.path name) cause))
  /-- The entry is a link that leads to a directory on the trail. -/
  | loop {v w u : Visit} {above : List Visit} (enters : d.Enters v name w)
      (link : w.place ≠ v.place ++ [name]) (on : u ∈ v :: above) (same : u.place = w.place) :
      d.Shows name (v :: above) (.error (.loop w.path u.path))

/-- On some trail that goes on from `base` an entry shows `s`. -/
def Met (d : Disk) (base : List Visit) (s : Except WalkError String) : Prop :=
  ∃ trail name, d.Trail base trail ∧ d.Shows name trail s

variable {d : Disk} {v w : Visit} {above trail : List Visit} {name : String}
  {s : Except WalkError String}

/-! ## Trails -/

namespace Enters

variable (h : d.Enters v name w)

include h

theorem ne_file (place : Place) (bytes : ByteArray) :
    d.findEntry v.place name ≠ .ok (place, .file bytes) := by
  obtain ⟨n, leads, noFile⟩ := h.leads
  rw [leads]
  intro same
  cases same
  exact noFile bytes rfl

theorem ne_error (cause : DiskError) : d.findEntry v.place name ≠ .error cause := by
  obtain ⟨n, leads, -⟩ := h.leads
  simp [leads]

/-- An entry leads to one place. -/
theorem eq {u : Visit} (other : d.Enters v name u) : u = w := by
  obtain ⟨n, leads, -⟩ := h.leads
  obtain ⟨m, leads', -⟩ := other.leads
  rw [leads, Except.ok.injEq, Prod.mk.injEq] at leads'
  have path : u.path = w.path := other.path.trans h.path.symm
  cases u
  cases w
  cases leads'.1
  cases path
  rfl

end Enters

/-- A trail that goes on goes on by an entry of the nearest directory. -/
theorem Trail.cases_base (h : d.Trail (v :: above) trail) :
    trail = v :: above ∨ ∃ name w, d.Enters v name w ∧ d.Trail (w :: v :: above) trail := by
  induction h with
  | base => exact .inl rfl
  | down _ enters ih =>
    rcases ih with same | ⟨name, w, first, rest⟩
    · cases same
      exact .inr ⟨_, _, enters, .base⟩
    · exact .inr ⟨name, w, first, rest.down enters⟩

theorem Trail.of_enters (enters : d.Enters v name w) (h : d.Trail (w :: v :: above) trail) :
    d.Trail (v :: above) trail := by
  induction h with
  | base => exact .down .base enters
  | down _ next ih => exact ih.down next

/-- What is met by an entry of the nearest directory, there or further down. -/
def MetBy (d : Disk) (base : List Visit) (name : String) (s : Except WalkError String) : Prop :=
  d.Shows name base s ∨ ∃ v above w, base = v :: above ∧ d.Enters v name w ∧ d.Met (w :: base) s

theorem met_iff : d.Met (v :: above) s ↔ ∃ name, d.MetBy (v :: above) name s := by
  constructor
  · rintro ⟨trail, name, h, shows⟩
    rcases h.cases_base with rfl | ⟨first, w, enters, rest⟩
    · exact ⟨name, .inl shows⟩
    · exact ⟨first, .inr ⟨v, above, w, rfl, enters, trail, name, rest, shows⟩⟩
  · rintro ⟨name, shows | ⟨v, above, w, same, enters, trail, last, rest, shows⟩⟩
    · exact ⟨_, name, .base, shows⟩
    · cases same
      exact ⟨trail, last, rest.of_enters enters, shows⟩

/-! ## How far down it goes -/

/-- The places where something may be. -/
def places (d : Disk) : List Place :=
  [] :: d.entries.map Prod.fst

theorem mem_places {p : Place} {n : Node} (h : d.node? p = some n) : p ∈ d.places := by
  unfold node? at h
  split at h
  · next root => simp [places, List.isEmpty_iff.1 root]
  · obtain ⟨before, after, cut, -⟩ := List.lookup_eq_some_iff.1 h
    simp [places, cut]

/-- The places that the trail has not been to. -/
def unvisited (d : Disk) (trail : List Visit) : Nat :=
  d.places.countP fun p => trail.all fun v => v.place ≠ p

/-- The places with more names than this one. -/
def longer (d : Disk) (p : Place) : Nat :=
  d.places.countP fun q => p.length < q.length

/-- How many directories there may be yet to go down below the one that is visited. -/
def left (d : Disk) (above : List Visit) (v : Visit) : Nat :=
  d.unvisited (v :: above) * (d.entries.length + 1) + d.longer v.place

theorem length_places : d.places.length = d.entries.length + 1 := by
  simp [places]

/-- A member that one test passes and the other does not makes the difference. -/
theorem countP_lt_of_mem {p q : α → Bool} {xs : List α} {x : α} (le : ∀ y, p y = true → q y = true)
    (mem : x ∈ xs) (holds : q x = true) (fails : p x = false) : xs.countP p < xs.countP q := by
  obtain ⟨before, after, rfl⟩ := List.append_of_mem mem
  have above : before.countP p ≤ before.countP q := List.countP_mono_left fun y _ => le y
  have below : after.countP p ≤ after.countP q := List.countP_mono_left fun y _ => le y
  simp only [List.countP_append, List.countP_cons, holds, fails]
  simp only [Bool.false_eq_true, if_false, if_true]
  omega

theorem longer_le {p : Place} (h : p ∈ d.places) : d.longer p ≤ d.entries.length := by
  have less : d.longer p < d.places.length :=
    List.countP_lt_length_iff.2 ⟨p, h, by simp⟩
  rw [length_places] at less
  omega

theorem unvisited_le : d.unvisited (w :: trail) ≤ d.unvisited trail := by
  refine List.countP_mono_left fun p _ h => ?_
  rw [List.all_cons, Bool.and_eq_true] at h
  exact h.2

theorem unvisited_lt (h : w.place ∈ d.places) (new : ∀ u ∈ trail, u.place ≠ w.place) :
    d.unvisited (w :: trail) < d.unvisited trail := by
  refine countP_lt_of_mem (fun p hp => ?_) h ?_ (by simp)
  · rw [List.all_cons, Bool.and_eq_true] at hp
    exact hp.2
  · simpa using new

theorem longer_lt {p : Place} (h : p ++ [name] ∈ d.places) :
    d.longer (p ++ [name]) < d.longer p := by
  refine countP_lt_of_mem (fun q hq => ?_) h (by simp) (by simp)
  simp only [List.length_append, decide_eq_true_eq] at hq ⊢
  omega

/-- What is found stands at the place. -/
theorem node?_of_bind {x : Except DiskError Place} {p : Place} {n : Node}
    (h : x.bind d.entryAt = .ok (p, n)) : d.node? p = some n := by
  cases x with
  | error e => cases h
  | ok q =>
    simp only [Except.bind, entryAt] at h
    split at h
    · next found =>
      cases h
      exact found
    · cases h

theorem Enters.mem_places (h : d.Enters v name w) : w.place ∈ d.places := by
  obtain ⟨n, leads, -⟩ := h.leads
  rw [findEntry_eq] at leads
  exact Disk.mem_places (node?_of_bind leads)

/-- A directory that is entered, other than by a link to one that is on the trail, leaves less to go
down. -/
theorem left_lt (enters : d.Enters v name w)
    (new : w.place = v.place ++ [name] ∨ ∀ u ∈ v :: above, u.place ≠ w.place) :
    d.left (v :: above) w < d.left above v := by
  have place : w.place ∈ d.places := enters.mem_places
  unfold left
  rcases new with below | new
  · have fewer : d.longer w.place < d.longer v.place := by
      rw [below] at place ⊢
      exact longer_lt place
    have most : d.unvisited (w :: v :: above) ≤ d.unvisited (v :: above) := unvisited_le
    have := Nat.mul_le_mul_right (d.entries.length + 1) most
    omega
  · have fewer : d.unvisited (w :: v :: above) < d.unvisited (v :: above) := unvisited_lt place new
    have most : d.longer w.place ≤ d.entries.length := longer_le place
    have := Nat.mul_le_mul_right (d.entries.length + 1) fewer
    rw [Nat.succ_mul] at this
    omega

theorem left_start (h : v.place ∈ d.places) : d.left [] v < d.maxDepth := by
  have most : d.longer v.place ≤ d.entries.length := longer_le h
  have fewer : d.unvisited [v] < d.unvisited [] := unvisited_lt h (by simp)
  have all : d.unvisited [] = d.entries.length + 1 := by
    simp [unvisited, length_places]
  rw [all] at fewer
  have := Nat.mul_le_mul_right (d.entries.length + 1) fewer
  rw [Nat.succ_mul] at this
  unfold left maxDepth
  omega

/-! ## The walk -/

/-- What the walk makes of an entry. -/
def explore (d : Disk) (depth : Nat) (above : List Visit) (visit : Visit) (name : String) :
    Except WalkError (List String) :=
  let path := Path.join visit.path name
  match d.findEntry visit.place name with
  | .error e => .error (.entry path e)
  | .ok (_, .file _) => .ok (if isFeatureName name then [path] else [])
  | .ok (place, _) =>
    let isLink := place != visit.place ++ [name]
    match (visit :: above).find? fun v => isLink && v.place == place with
    | some v => .error (.loop path v.path)
    | none => d.walk depth (visit :: above) ⟨place, path⟩

theorem walk_succ (depth : Nat) :
    d.walk (depth + 1) above v =
      List.flatten <$> (d.names v.place).mapM (d.explore depth above v) :=
  rfl

/-- The result is all feature files that are met, if no obstacle is, or else an obstacle. -/
def Lists (met : Except WalkError String → Prop) : Except WalkError (List String) → Prop
  | .ok files => ∀ s, met s ↔ ∃ file ∈ files, s = .ok file
  | .error e => met (.error e)

/-- An entry that leads nowhere shows that alone. -/
theorem lists_nowhere {cause : DiskError} (entry : name ∈ d.names v.place)
    (leads : d.findEntry v.place name = .error cause) :
    Lists (d.MetBy (v :: above) name) (.error (.entry (Path.join v.path name) cause)) :=
  .inl (.nowhere entry leads)

/-- An entry that leads to a file shows it if it has the extension of a feature file. -/
theorem lists_file {place : Place} {bytes : ByteArray} (entry : name ∈ d.names v.place)
    (leads : d.findEntry v.place name = .ok (place, .file bytes)) :
    Lists (d.MetBy (v :: above) name)
      (.ok (if isFeatureName name then [Path.join v.path name] else [])) := by
  intro s
  constructor
  · rintro (shows | ⟨_, _, w, same, enters, -⟩)
    · cases shows with
      | feature _ _ named => simp [isFeatureName_iff.2 named]
      | nowhere _ nothing => simp [leads] at nothing
      | loop enters => exact absurd leads (enters.ne_file place bytes)
    · cases same
      exact absurd leads (enters.ne_file place bytes)
  · rintro ⟨file, mem, rfl⟩
    split at mem
    · next named =>
      rw [List.mem_singleton.1 mem]
      exact .inl (.feature entry leads (isFeatureName_iff.1 named))
    · cases mem

/-- A directory that is not on the trail shows what is met below it. -/
theorem metBy_iff (enters : d.Enters v name w)
    (new : w.place = v.place ++ [name] ∨ ∀ u ∈ v :: above, u.place ≠ w.place) :
    d.MetBy (v :: above) name s ↔ d.Met (w :: v :: above) s := by
  constructor
  · rintro (shows | ⟨_, _, u, same, other, met⟩)
    · cases shows with
      | feature _ leads => exact absurd leads (enters.ne_file _ _)
      | nowhere _ leads => exact absurd leads (enters.ne_error _)
      | loop other link on same =>
        rw [enters.eq other] at link same
        rcases new with below | new
        · exact absurd below link
        · exact absurd same (new _ on)
    · cases same
      rwa [enters.eq other] at met
  · intro met
    exact .inr ⟨v, above, w, rfl, enters, met⟩

theorem MetBy.entry (h : d.MetBy (v :: above) name s) : name ∈ d.names v.place := by
  rcases h with shows | ⟨_, _, w, same, enters, -⟩
  · cases shows with
    | feature entry => exact entry
    | nowhere entry => exact entry
    | loop enters => exact enters.entry
  · cases same
    exact enters.entry

/-- What is met by the entries one after the other is what is met. -/
theorem lists_mapM {explore : String → Except WalkError (List String)}
    (each : ∀ name ∈ d.names v.place, Lists (d.MetBy (v :: above) name) (explore name)) :
    Lists (d.Met (v :: above)) (List.flatten <$> (d.names v.place).mapM explore) := by
  cases all : (d.names v.place).mapM explore with
  | error e =>
    obtain ⟨before, name, after, cut, failed, -⟩ := mapM_eq_error_iff.1 all
    have obstacle := each name (by simp [cut])
    rw [failed] at obstacle
    exact met_iff.2 ⟨name, obstacle⟩
  | ok groups =>
    have results := mapM_eq_ok_iff.1 all
    intro s
    rw [met_iff]
    constructor
    · rintro ⟨name, met⟩
      obtain ⟨files, hfiles, found⟩ := exists_of_mem_right results.flip met.entry
      have listed := each name met.entry
      rw [found] at listed
      obtain ⟨file, hfile, rfl⟩ := (listed s).1 met
      exact ⟨file, List.mem_flatten.2 ⟨files, hfiles, hfile⟩, rfl⟩
    · rintro ⟨file, mem, rfl⟩
      obtain ⟨files, hfiles, hfile⟩ := List.mem_flatten.1 mem
      obtain ⟨name, entry, found⟩ := exists_of_mem_right results hfiles
      have listed := each name entry
      rw [found] at listed
      exact ⟨name, (listed _).2 ⟨file, hfile, rfl⟩⟩

theorem lists_explore {depth : Nat} (entry : name ∈ d.names v.place)
    (below : ∀ w, d.left (v :: above) w < depth →
      Lists (d.Met (w :: v :: above)) (d.walk depth (v :: above) w))
    (enough : d.left above v < depth + 1) :
    Lists (d.MetBy (v :: above) name) (d.explore depth above v name) := by
  unfold explore
  split
  · next leads => exact lists_nowhere entry leads
  · next leads => exact lists_file entry leads
  · next place n noFile leads =>
    have enters : d.Enters v name ⟨place, Path.join v.path name⟩ :=
      ⟨entry, ⟨n, leads, noFile⟩, rfl⟩
    simp only
    split
    · next u found =>
      have mem := List.mem_of_find?_eq_some found
      have test := List.find?_some found
      simp only [Bool.and_eq_true, bne_iff_ne, beq_iff_eq] at test
      exact .inl (.loop enters test.1 mem test.2)
    · next missing =>
      have new : place = v.place ++ [name] ∨ ∀ u ∈ v :: above, u.place ≠ place := by
        rw [List.find?_eq_none] at missing
        by_cases link : place = v.place ++ [name]
        · exact .inl link
        · exact .inr fun u hu same => missing u hu (by simp [link, same])
      have same : d.MetBy (v :: above) name =
          d.Met (⟨place, Path.join v.path name⟩ :: v :: above) :=
        funext fun s => propext (metBy_iff enters new)
      rw [same]
      have less := left_lt enters new
      exact below _ (by omega)

/-- **The walk.** It lists the feature files that are met, if no obstacle is, or else ends with an
obstacle. -/
theorem walk_met {depth : Nat} (enough : d.left above v < depth) :
    Lists (d.Met (v :: above)) (d.walk depth above v) := by
  induction depth generalizing v above with
  | zero => omega
  | succ depth ih =>
    rw [walk_succ]
    exact lists_mapM fun name entry => lists_explore entry (fun w h => ih h) enough

end Disk

end Gherkin
