import PatchLint.Files.FileTree

/-!
# What a path can lead to

A path is read by following its components, dots included. Where it leads to is a place in the tree that
has no dots (`placeOf`).

* `find?_of_follow`, `follow_of_find?` — a path leads to its place, and so do the names of the place
* `readBytes_of_parts_eq` — so a file can be read by these names
* `mem_walk_of_find?` — a walk comes by everything below a directory, and so whatever can be read is
  among the files of the tree (`exists_mem_files_of_readBytes`)
-/

namespace PatchLint.FileTree

/-! ## Paths -/

/-- Whether names are none of the dots that a path is followed by. -/
def IsPlain (names : List String) : Prop := ∀ name ∈ names, name ≠ "." ∧ name ≠ ".."

theorem IsPlain.of_front {names names' : List String} (h : IsPlain names') (hfront : names <+: names') :
    IsPlain names :=
  fun name hname => h name (hfront.subset hname)

/-- The place that one component leads to. -/
def stepPlace (place : List String) (step : String) : List String :=
  if step = ".." then place.dropLast else if step = "." then place else place ++ [step]

/-- The place that components lead to. -/
def placeFrom (place steps : List String) : List String := steps.foldl stepPlace place

theorem IsPlain.stepPlace {place : List String} (h : IsPlain place) (step : String) :
    IsPlain (stepPlace place step) := by
  rw [FileTree.stepPlace]
  by_cases hup : step = ".."
  · rw [if_pos hup]
    exact h.of_front place.dropLast_prefix
  by_cases hhere : step = "."
  · rw [if_neg hup, if_pos hhere]
    exact h
  · rw [if_neg hup, if_neg hhere]
    intro name hname
    rcases List.mem_append.mp hname with hname | hname
    · exact h name hname
    · rw [List.mem_singleton.mp hname]
      exact ⟨hhere, hup⟩

/-- **Components lead to a place without dots.** -/
theorem IsPlain.placeFrom {place : List String} (h : IsPlain place) (steps : List String) :
    IsPlain (placeFrom place steps) := by
  induction steps generalizing place with
  | nil => exact h
  | cons step steps ih => exact ih (h.stepPlace step)

/-- Components without dots lead to just these. -/
theorem placeFrom_of_isPlain {steps : List String} (h : IsPlain steps) (place : List String) :
    placeFrom place steps = place ++ steps := by
  induction steps generalizing place with
  | nil => exact (List.append_nil place).symm
  | cons step steps ih =>
    obtain ⟨hhere, hup⟩ := h step List.mem_cons_self
    rw [placeFrom, List.foldl_cons, stepPlace, if_neg hup, if_neg hhere, ← placeFrom,
      ih fun name hname => h name (List.mem_cons_of_mem _ hname), List.append_assoc,
      List.singleton_append]

theorem follow_cons {root : FileTree} {place : List String} {entries : List (String × FileTree)}
    (h : root.find? place = some (.directory entries)) (step : String) (steps : List String) :
    follow root place (step :: steps) = follow root (stepPlace place step) steps := by
  rw [follow, h, stepPlace]
  dsimp only
  split
  · rfl
  · split
    · rfl
    · rfl

/-- A step is possible only from a directory. -/
theorem exists_directory_of_follow_cons {root t : FileTree} {place steps : List String}
    {step : String} (h : follow root place (step :: steps) = .ok t) :
    ∃ entries, root.find? place = some (.directory entries) := by
  rw [follow] at h
  cases hfind : root.find? place with
  | none => rw [hfind] at h; cases h
  | some found =>
    rw [hfind] at h
    cases found with
    | file bytes => cases h
    | locked isDirectory => cases isDirectory <;> cases h
    | directory entries => exact ⟨entries, rfl⟩

/-- **A path leads to its place,** whatever dots it has. -/
theorem find?_of_follow {root t : FileTree} {place steps : List String}
    (h : follow root place steps = .ok t) : root.find? (placeFrom place steps) = some t := by
  induction steps generalizing place with
  | nil =>
    rw [follow] at h
    cases hfind : root.find? place with
    | none => rw [hfind] at h; cases h
    | some found =>
      rw [hfind] at h
      cases h
      exact hfind
  | cons step steps ih =>
    obtain ⟨entries, hdir⟩ := exists_directory_of_follow_cons h
    rw [follow_cons hdir] at h
    exact ih h

theorem find?_append (t : FileTree) (names rest : List String) :
    t.find? (names ++ rest) = (t.find? names).bind (·.find? rest) := by
  induction names generalizing t with
  | nil => rfl
  | cons name names ih =>
    rw [List.cons_append, find?, find?, Option.bind_assoc]
    exact congrArg _ (funext fun child => ih child)

/-- **What is at a place without dots is found by following its names.** -/
theorem follow_of_find? {root t : FileTree} {place steps : List String} (hsteps : IsPlain steps)
    (h : root.find? (place ++ steps) = some t) : follow root place steps = .ok t := by
  induction steps generalizing place with
  | nil =>
    rw [List.append_nil] at h
    rw [follow, h]
  | cons step steps ih =>
    obtain ⟨hhere, hup⟩ := hsteps step List.mem_cons_self
    obtain ⟨entries, hdir⟩ : ∃ entries, root.find? place = some (.directory entries) := by
      rw [find?_append] at h
      obtain ⟨dir, hdir, h⟩ := Option.bind_eq_some_iff.mp h
      cases dir with
      | file bytes | locked isDirectory => cases h
      | directory entries => exact ⟨entries, hdir⟩
    rw [follow_cons hdir, stepPlace, if_neg hup, if_neg hhere]
    refine ih (fun name hname => hsteps name (List.mem_cons_of_mem _ hname)) ?_
    rw [List.append_assoc, List.singleton_append]
    exact h

/-! ## Reading -/

/-- The place that a path leads to. -/
def placeOf (p : Path) : List String := placeFrom [] p.parts

theorem isPlain_nil : IsPlain [] := fun _ h => absurd h List.not_mem_nil

theorem isPlain_placeOf (p : Path) : IsPlain (placeOf p) := isPlain_nil.placeFrom p.parts

theorem placeOf_of_isPlain {p : Path} (h : IsPlain p.parts) : placeOf p = p.parts :=
  placeFrom_of_isPlain h []

theorem readBytes_eq_ok_iff {root : FileTree} {p : Path} {bytes : List UInt8} :
    root.readBytes p = .ok bytes ↔ root.lookup p = .ok (.file bytes) := by
  rw [readBytes]
  cases root.lookup p with
  | error e => simp
  | ok t =>
    cases t with
    | file bytes' => simp
    | directory entries | locked isDirectory => simp

theorem find?_of_readBytes {root : FileTree} {p : Path} {bytes : List UInt8}
    (h : root.readBytes p = .ok bytes) : root.find? (placeOf p) = some (.file bytes) :=
  find?_of_follow (readBytes_eq_ok_iff.mp h)

/-- **A file can be read by the names of its place.** -/
theorem readBytes_of_parts_eq {root : FileTree} {p file : Path} {bytes : List UInt8}
    (h : root.readBytes p = .ok bytes) (hparts : file.parts = placeOf p) :
    root.readBytes file = .ok bytes := by
  refine readBytes_eq_ok_iff.mpr (follow_of_find? (hparts ▸ isPlain_placeOf p) ?_)
  rw [List.nil_append, hparts]
  exact find?_of_readBytes h

/-! ## Walking -/

theorem self_mem_walk (t : FileTree) (place : Path) : (place, t) ∈ t.walk place := by
  cases t with
  | file bytes | locked isDirectory => exact List.mem_singleton_self _
  | directory entries => exact List.mem_cons_self

theorem mem_walkEntries_of_entryOf? {place : Path} {name : String} {t : FileTree}
    {entries : List (String × FileTree)} (h : entryOf? name entries = some t)
    {item : Path × FileTree} (hitem : item ∈ t.walk (place.child name)) :
    item ∈ walkEntries place entries := by
  induction entries with
  | nil => cases h
  | cons entry entries ih =>
    obtain ⟨other, t'⟩ := entry
    rw [walkEntries, List.mem_append]
    rw [entryOf?] at h
    by_cases hname : other = name
    · rw [if_pos hname] at h
      cases h
      exact Or.inl (hname ▸ hitem)
    · rw [if_neg hname] at h
      exact Or.inr (ih h)

/-- **A walk comes by everything below a directory.** -/
theorem mem_walk_of_find? {t found : FileTree} {place : Path} {names : List String}
    (h : t.find? names = some found) :
    ({ place with parts := place.parts ++ names }, found) ∈ t.walk place := by
  induction names generalizing t place with
  | nil =>
    rw [find?] at h
    cases h
    rw [List.append_nil]
    exact self_mem_walk _ place
  | cons name names ih =>
    rw [find?] at h
    obtain ⟨t', hchild, hfind⟩ := Option.bind_eq_some_iff.mp h
    cases t with
    | file bytes' | locked isDirectory => cases hchild
    | directory entries =>
      rw [walk]
      refine List.mem_cons_of_mem _ (mem_walkEntries_of_entryOf? hchild ?_)
      have hmem := @ih t' (place.child name) hfind
      rw [Path.child, List.append_assoc, List.singleton_append] at hmem
      exact hmem

theorem mem_files_iff {t : FileTree} {place p : Path} {bytes : List UInt8} :
    (p, bytes) ∈ t.files place ↔ (p, .file bytes) ∈ t.walk place := by
  simp only [files, List.mem_filterMap, Option.map_eq_some_iff, Prod.mk.injEq]
  constructor
  · rintro ⟨⟨q, found⟩, hmem, bytes', hbytes, rfl, rfl⟩
    cases found with
    | directory entries | locked isDirectory => cases hbytes
    | file bytes' =>
      cases hbytes
      exact hmem
  · intro hmem
    exact ⟨_, hmem, bytes, rfl, rfl, rfl⟩

/-- **What can be read is among the files of the tree.** -/
theorem exists_mem_files_of_readBytes {root : FileTree} {p : Path} {bytes : List UInt8}
    (h : root.readBytes p = .ok bytes) (place : Path) : ∃ q, (q, bytes) ∈ root.files place :=
  ⟨_, mem_files_iff.mpr (mem_walk_of_find? (find?_of_readBytes h))⟩

end PatchLint.FileTree
