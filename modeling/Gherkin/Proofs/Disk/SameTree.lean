import Gherkin.Disk.Search

/-!
# Disks that differ in the bytes of files

Two disks have the same tree if they have the same entries up to what is in their files. Paths lead
to the same places on both, and the search for feature files finds the same paths. Other bytes in
a file leave the tree as it is, and every file elsewhere. A file in the current directory is found
by its name.
-/

namespace Gherkin

/-- The path is a name that an entry of a directory can have. -/
def Path.IsName (path : String) : Prop :=
  parts path = [path] ∧ isAbsolute path = false ∧ path ∉ ["", ".", ".."] ∧
    path.utf8ByteSize ≤ Disk.maxNameSize ∧ '\x00' ∉ path.toList

instance (path : String) : Decidable (Path.IsName path) :=
  inferInstanceAs (Decidable (_ ∧ _))

namespace Disk

/-- The disks are the same but for the bytes in their files. -/
structure SameTree (d e : Disk) : Prop where
  current : d.current = e.current
  size : d.entries.length = e.entries.length
  names : ∀ p, d.names p = e.names p
  node : ∀ p, d.node? p = e.node? p ∨
    ∃ a b, d.node? p = some (.file a) ∧ e.node? p = some (.file b)

/-- What is at a place, if anything is. -/
def entryAt (d : Disk) (p : Place) : Except DiskError (Place × Node) :=
  match d.node? p with
  | some n => .ok (p, n)
  | none => .error .notFound

theorem findEntry_eq (d : Disk) (directory : Place) (name : String) :
    d.findEntry directory name = (d.follow maxLinks directory [name]).bind d.entryAt := by
  rfl

/-- The place that a path leads to. -/
def lead (d : Disk) (path : String) : Except DiskError Place :=
  if path.toList.contains '\x00' then .error .invalidPath
  else if path.isEmpty then .error .notFound
  else if maxPathSize < path.utf8ByteSize then .error .nameTooLong
  else d.follow maxLinks (if Path.isAbsolute path then [] else d.current) (Path.parts path)

theorem find_eq (d : Disk) (path : String) : d.find path = (d.lead path).bind d.entryAt := by
  simp only [find, lead]
  split
  · rfl
  split
  · rfl
  split
  · rfl
  rfl

/-- The same entry was found, or a file each time. -/
inductive Alike : Except DiskError (Place × Node) → Except DiskError (Place × Node) → Prop where
  | same (x : Except DiskError (Place × Node)) : Alike x x
  | file (p : Place) (a b : ByteArray) : Alike (.ok (p, .file a)) (.ok (p, .file b))

namespace SameTree

variable {d e : Disk}

theorem node_eq (h : d.SameTree e) {p : Place} {n : Option Node} (here : d.node? p = n)
    (other : ∀ a, n ≠ some (.file a)) : e.node? p = n := by
  rcases h.node p with same | ⟨a, b, file, -⟩
  · rw [← same, here]
  · exact absurd (here.symm.trans file) (other a)

theorem node_file (h : d.SameTree e) {p : Place} {a : ByteArray}
    (here : d.node? p = some (.file a)) : ∃ b, e.node? p = some (.file b) := by
  rcases h.node p with same | ⟨a, b, -, there⟩
  · exact ⟨a, same.symm.trans here⟩
  · exact ⟨b, there⟩

/-- Paths lead to the same places. -/
theorem follow_eq (h : d.SameTree e) (links : Nat) (at_ : Place) (parts : List String) :
    d.follow links at_ parts = e.follow links at_ parts := by
  fun_induction Disk.follow d links at_ parts with
  | case1 => simp [follow]
  | case2 _ _ _ _ nothing => simp [follow, h.node_eq nothing]
  | case3 _ _ _ _ _ file =>
    obtain ⟨b, there⟩ := h.node_file file
    simp [follow, there]
  | case4 _ _ _ _ _ link => simp [follow, h.node_eq link]
  | case5 _ _ _ _ directory here ih =>
    rw [ih, follow.eq_def e _ _ (_ :: _)]
    simp [h.node_eq directory, here]
  | case6 _ _ _ directory _ ih => simp [ih, follow, h.node_eq directory]
  | case7 _ _ _ _ directory here above long =>
    simp [follow, h.node_eq directory, here, above, long]
  | case8 _ _ _ _ directory here above long nothing =>
    simp [follow, h.node_eq directory, here, above, long, h.node_eq nothing]
  | case9 _ _ _ directory here above long _ link =>
    simp [follow, h.node_eq directory, here, above, long, h.node_eq link]
  | case10 _ _ _ directory here above long _ link _ ih =>
    rw [dite_eq_ite] at ih
    rw [ih, follow.eq_def e _ _ (_ :: _)]
    simp [h.node_eq directory, here, above, long, h.node_eq link]
  | case11 _ _ _ _ directory here above long n other entry ih =>
    rw [ih, follow.eq_def e _ _ (_ :: _)]
    cases n with
    | link target => exact absurd rfl (other target)
    | directory => simp [h.node_eq directory, here, above, long, h.node_eq entry]
    | file a =>
      obtain ⟨b, there⟩ := h.node_file entry
      simp [h.node_eq directory, here, above, long, there]

theorem entryAt_alike (h : d.SameTree e) (p : Place) : Alike (d.entryAt p) (e.entryAt p) := by
  rcases h.node p with same | ⟨a, b, here, there⟩
  · rw [entryAt, entryAt, same]
    exact .same _
  · simp only [entryAt, here, there]
    exact .file p a b

theorem lead_eq (h : d.SameTree e) (path : String) : d.lead path = e.lead path := by
  simp only [lead, h.current, h.follow_eq]

theorem bind_alike (h : d.SameTree e) (x : Except DiskError Place) :
    Alike (x.bind d.entryAt) (x.bind e.entryAt) := by
  cases x with
  | error cause => exact .same _
  | ok p => exact h.entryAt_alike p

theorem find_alike (h : d.SameTree e) (path : String) : Alike (d.find path) (e.find path) := by
  rw [find_eq, find_eq, h.lead_eq]
  exact h.bind_alike _

theorem findEntry_alike (h : d.SameTree e) (directory : Place) (name : String) :
    Alike (d.findEntry directory name) (e.findEntry directory name) := by
  rw [findEntry_eq, findEntry_eq, h.follow_eq]
  exact h.bind_alike _

theorem walk_eq (h : d.SameTree e) (depth : Nat) (above : List Visit) (visit : Visit) :
    d.walk depth above visit = e.walk depth above visit := by
  induction depth generalizing above visit with
  | zero => rfl
  | succ depth ih =>
    simp only [walk, h.names]
    congr 2
    funext name
    have entry := h.findEntry_alike visit.place name
    generalize d.findEntry visit.place name = x, e.findEntry visit.place name = y at entry
    cases entry with
    | file p a b => rfl
    | same =>
      rcases x with cause | ⟨p, a | _ | target⟩ <;> simp only [ih]

theorem featuresAt_eq (h : d.SameTree e) (path : String) :
    d.featuresAt path = e.featuresAt path := by
  have found := h.find_alike path
  have depth : d.maxDepth = e.maxDepth := by rw [maxDepth, maxDepth, h.size]
  simp only [featuresAt, depth, h.walk_eq]
  generalize d.find path = x, e.find path = y at found
  cases found <;> rfl

/-- The search finds the same files. -/
theorem features_eq (h : d.SameTree e) (paths : List String) :
    d.features paths = e.features paths := by
  have each : d.featuresAt = e.featuresAt := funext h.featuresAt_eq
  rw [features, features, each]

end SameTree

/-! ## Other bytes in a file -/

/-- Looking up in a list of which the entries of one key got a new value. -/
theorem lookup_replaced (es : List (Place × Node)) (p q : Place) (n : Node) :
    (es.map fun e => if e.1 = p then (p, n) else e).lookup q =
      if q = p then (es.lookup p).map fun _ => n else es.lookup q := by
  induction es with
  | nil => simp
  | cons e es ih =>
    rcases e with ⟨k, m⟩
    by_cases hk : k = p <;> by_cases hq : q = p
    · subst hk hq
      simp
    · subst hk
      have different : (q == k) = false := by simp [hq]
      simp [List.lookup_cons, different, hq, ih]
    · subst hq
      have different : (q == k) = false := by simp [Ne.symm hk]
      simp [List.lookup_cons, different, hk, ih]
    · simp [List.lookup_cons, hk, hq, ih]

section

variable {d : Disk} {place : Place} {old new : ByteArray}

theorem set_eq (h : d.node? place = some (.file old)) :
    d.set place (.file new) = { d with
      entries := d.entries.map fun e => if e.1 = place then (place, .file new) else e } := by
  simp [set, h]

theorem node?_set (h : d.node? place = some (.file old)) (p : Place) :
    (d.set place (.file new)).node? p = if p = place then some (.file new) else d.node? p := by
  have below : place ≠ [] := by
    rintro rfl
    simp [node?] at h
  have held : d.entries.lookup place = some (.file old) := by
    simpa [node?, below] using h
  rw [set_eq h, node?, lookup_replaced, held]
  by_cases root : p = []
  · simp [root, node?, Ne.symm below]
  · simp [root, node?]

/-- Other bytes in a file leave the tree as it is. -/
theorem sameTree_set (h : d.node? place = some (.file old)) :
    d.SameTree (d.set place (.file new)) where
  current := by rw [set_eq h]
  size := by simp [set_eq h]
  names p := by
    rw [set_eq h, names, names, List.filterMap_map]
    congr 1
    funext e
    by_cases he : e.1 = place <;> simp [he]
  node p := by
    rw [node?_set h]
    by_cases hp : p = place
    · subst hp
      exact .inr ⟨old, new, h, if_pos rfl⟩
    · exact .inl (if_neg hp).symm

/-- A path that does not lead to the file finds what it found before. -/
theorem find_set (h : d.node? place = some (.file old)) {path : String}
    (elsewhere : ∀ n, d.find path ≠ .ok (place, n)) :
    (d.set place (.file new)).find path = d.find path := by
  have same : d.SameTree (d.set place (.file new)) := sameTree_set h
  rw [find_eq] at elsewhere ⊢
  rw [find_eq, ← same.lead_eq]
  cases led : d.lead path with
  | error cause => rfl
  | ok p =>
    have away : p ≠ place := by
      rintro rfl
      exact elsewhere (.file old) (by simp [led, Except.bind, entryAt, h])
    simp [Except.bind, entryAt, node?_set h, away]

/-- A path that does not lead to the file reads what it read before. -/
theorem read_set (h : d.node? place = some (.file old)) {path : String}
    (elsewhere : ∀ n, d.find path ≠ .ok (place, n)) :
    (d.set place (.file new)).read path = d.read path := by
  rw [read, read, find_set h elsewhere]

end

/-! ## Entries that are no links -/

section

variable {d : Disk} {place directory : Place} {name path : String} {n : Node} {bytes : ByteArray}

/-- A name leads to the entry with the name, if that is no link and if there is one. -/
theorem follow_name (links : Nat) (proper : Path.IsName name)
    (inside : d.node? directory = some .directory)
    (noLink : ∀ target, d.node? (directory ++ [name]) ≠ some (.link target)) :
    (d.follow links directory [name]).bind d.entryAt = d.entryAt (directory ++ [name]) := by
  obtain ⟨-, -, dots, short, -⟩ := proper
  simp only [List.mem_cons, List.not_mem_nil, or_false, not_or] at dots
  obtain ⟨nonempty, here, above⟩ := dots
  rcases held : d.node? (directory ++ [name]) with _ | bytes | _ | target
  case some.link => exact absurd held (noLink target)
  all_goals
    simp [follow, inside, held, nonempty, here, above, Nat.not_lt.2 short, Except.bind, entryAt]

theorem findEntry_name (proper : Path.IsName name) (inside : d.node? directory = some .directory)
    (held : d.node? (directory ++ [name]) = some n) (noLink : ∀ target, n ≠ .link target) :
    d.findEntry directory name = .ok (directory ++ [name], n) := by
  rw [findEntry_eq, follow_name maxLinks proper inside (by simpa [held] using noLink), entryAt,
    held]

/-- A name leads on from the current directory. -/
theorem lead_name (name : Path.IsName path) : d.lead path = d.follow maxLinks d.current [path] := by
  obtain ⟨single, relative, dots, short, text⟩ := name
  have nonempty : path.isEmpty = false := by simpa using fun empty => dots (by simp [empty])
  have fits : ¬ maxPathSize < path.utf8ByteSize :=
    Nat.not_lt.2 (Nat.le_trans short (by decide))
  simp [lead, text, nonempty, fits, relative, single]

/-- An entry of the current directory that is no link is found by its name. -/
theorem find_name (name : Path.IsName path) (directory : d.node? d.current = some .directory)
    (held : d.node? (d.current ++ [path]) = some n) (noLink : ∀ target, n ≠ .link target) :
    d.find path = .ok (d.current ++ [path], n) := by
  rw [find_eq, lead_name name, follow_name maxLinks name directory (by simpa [held] using noLink),
    entryAt, held]

theorem find_missing (name : Path.IsName path) (directory : d.node? d.current = some .directory)
    (missing : d.node? (d.current ++ [path]) = none) : d.find path = .error .notFound := by
  rw [find_eq, lead_name name, follow_name maxLinks name directory (by simp [missing]), entryAt,
    missing]

theorem read_of_find (h : d.find path = .ok (place, .file bytes)) : d.read path = .ok bytes := by
  rw [read, h]
  rfl

/-- A path that leads to a file stands for itself. -/
theorem featuresAt_of_find (h : d.find path = .ok (place, .file bytes)) :
    d.featuresAt path = .ok [path] := by
  rw [featuresAt, h]

end

end Disk

end Gherkin
