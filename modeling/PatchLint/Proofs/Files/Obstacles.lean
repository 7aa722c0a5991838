import PatchLint.Proofs.Files.Listing

/-!
# What keeps a scan from going on

A scan walks to the bottom of everything below its paths. It cannot go on where the system does not answer and
where directories are nested too deeply, and it fails with the first such obstacle.

* `obstructs_of_obstacle?`, `obstacle?_ne_none` — the walk from a path fails exactly if something is in its way
  (`Obstructs`)
* `obstacle?_of_longName` — a name that is too long is in the way, even if there is nothing of this name
* `scanWithin_cases` — a scan fails with an obstacle on one of its paths, or there is none and it gives what
  `scan` gives
-/

namespace PatchLint

open FileTree

variable {limit : Option Nat} {root : FileTree} {cwd p : Path}

/-- What is in the way of the walk from a path. -/
inductive Obstructs (limit : Option Nat) (root : FileTree) (cwd p : Path) : Obstacle → Prop where
  | nullCharacter {name : String} (hname : name ∈ (cwd.join p).parts)
      (hnull : '\x00' ∈ name.toList) : Obstructs limit root cwd p .nullCharacter
  /-- The system does not tell whether the path denotes a file. -/
  | unknown {fault : ReadFault} (hask : root.askFile (Path.resolve cwd p) = .error fault) :
      Obstructs limit root cwd p (.inaccessible fault)
  /-- There is something as many levels below the path as calls can be nested. -/
  | tooDeep {names : List String} {found : FileTree} {bound : Nat}
      (hfind : root.find? ((Path.resolve cwd p).parts ++ names) = some found)
      (hlimit : limit = some bound) (hdeep : bound ≤ names.length) :
      Obstructs limit root cwd p .tooDeep
  /-- There is something at or below the path whose own path is too long. -/
  | tooLong {names : List String} {found : FileTree}
      (hfind : root.find? ((Path.resolve cwd p).parts ++ names) = some found)
      (hlong : pathLimit < byteCount ((Path.resolve cwd p).parts ++ names)) :
      Obstructs limit root cwd p (.inaccessible .nameTooLong)
  /-- There is a locked directory at the path or below it. -/
  | locked {names : List String}
      (hfind : root.find? ((Path.resolve cwd p).parts ++ names) = some (.locked true)) :
      Obstructs limit root cwd p (.inaccessible .denied)

/-! ## One path -/

theorem obstructs_of_obstacleAt? {names : List String} {found : FileTree} {cause : Obstacle}
    (hfind : root.find? ((Path.resolve cwd p).parts ++ names) = some found)
    (h : obstacleAt? limit names.length ⟨.root, (Path.resolve cwd p).parts ++ names⟩ found = some cause) :
    Obstructs limit root cwd p cause := by
  unfold obstacleAt? at h
  split at h
  · next hdeep =>
    cases h
    obtain ⟨bound, hbound, hle⟩ := Option.any_eq_true _ _ |>.mp hdeep
    exact .tooDeep hfind hbound (of_decide_eq_true hle)
  split at h
  · next hlong =>
    cases h
    exact .tooLong hfind hlong
  split at h
  · cases h
    exact .locked hfind
  · cases h

/-- **What the walk from a path fails with is in its way.** -/
theorem obstructs_of_obstacle? (hroot : root.wellNamed = true) {cause : Obstacle}
    (h : obstacle? limit root cwd p = some cause) : Obstructs limit root cwd p cause := by
  unfold obstacle? at h
  dsimp only at h
  split at h
  · next hnull =>
    cases h
    obtain ⟨name, hname, hcontains⟩ := List.any_eq_true.mp hnull
    exact .nullCharacter hname (List.contains_iff_mem.mp hcontains)
  split at h
  · next fault hask =>
    cases h
    exact .unknown hask
  · cases h
  · next t hlookup =>
    have hplace := (lookup_eq_ok_iff (isPlain_resolve cwd p)).mp hlookup
    obtain ⟨⟨q, found⟩, hmem, hcause⟩ := List.exists_of_findSome?_eq_some h
    obtain ⟨names, rfl, hbelow⟩ := (mem_walk_iff (wellNamed_of_find? hroot hplace).2).mp hmem
    rw [List.length_append, Nat.add_sub_cancel_left] at hcause
    refine obstructs_of_obstacleAt? ?_ hcause
    rw [find?_append, hplace, Option.bind_some, hbelow]

theorem obstacleAt?_ne_none {levels : Nat} {place : Path} {found : FileTree}
    (h : limit.any (· ≤ levels) = true ∨ pathLimit < byteCount place.parts ∨ found = .locked true) :
    obstacleAt? limit levels place found ≠ none := by
  unfold obstacleAt?
  split
  · nofun
  next hshallow =>
    split
    · nofun
    next hshort =>
      obtain rfl := (h.resolve_left hshallow).resolve_left hshort
      nofun

/-- An obstacle at something below a path is met on the walk from there. -/
theorem obstacle?_ne_none_of_below {names : List String} {found : FileTree}
    (hfind : root.find? ((Path.resolve cwd p).parts ++ names) = some found)
    (h : obstacleAt? limit names.length ⟨.root, (Path.resolve cwd p).parts ++ names⟩ found ≠ none) :
    obstacle? limit root cwd p ≠ none := by
  rw [find?_append] at hfind
  obtain ⟨t, hplace, hbelow⟩ := Option.bind_eq_some_iff.mp hfind
  have hlookup := (lookup_eq_ok_iff (isPlain_resolve cwd p)).mpr hplace
  unfold obstacle?
  dsimp only
  split
  · nofun
  split
  · nofun
  · next herror =>
    rw [hlookup] at herror
    cases herror
  · next t' ht' =>
    rw [hlookup] at ht'
    cases ht'
    intro hnone
    have hitem := List.findSome?_eq_none_iff.mp hnone _ (mem_walk_of_find? hbelow)
    dsimp only at hitem
    rw [List.length_append, Nat.add_sub_cancel_left] at hitem
    exact h hitem

/-- **The walk from a path fails if something is in its way.** -/
theorem obstacle?_ne_none {cause : Obstacle} (h : Obstructs limit root cwd p cause) :
    obstacle? limit root cwd p ≠ none := by
  cases h with
  | nullCharacter hname hnull =>
    have hany : (cwd.join p).parts.any (·.toList.contains '\x00') = true :=
      List.any_eq_true.mpr ⟨_, hname, List.contains_iff_mem.mpr hnull⟩
    unfold obstacle?
    dsimp only
    rw [if_pos hany]
    nofun
  | unknown hask =>
    unfold obstacle?
    dsimp only
    split
    · nofun
    · rw [hask]
      nofun
  | tooDeep hfind hlimit hdeep =>
    refine obstacle?_ne_none_of_below hfind (obstacleAt?_ne_none (Or.inl ?_))
    rw [hlimit]
    exact decide_eq_true hdeep
  | tooLong hfind hlong =>
    exact obstacle?_ne_none_of_below hfind (obstacleAt?_ne_none (Or.inr (Or.inl hlong)))
  | locked hfind =>
    exact obstacle?_ne_none_of_below hfind (obstacleAt?_ne_none (Or.inr (Or.inr rfl)))

/-- A name that is too long is an obstacle, even if there is nothing of this name. -/
theorem obstacle?_of_longName {entries : List (String × FileTree)} {name : String}
    (hplain : name ≠ "." ∧ name ≠ "..") (hnone : entryOf? name entries = none)
    (hlong : nameLimit < name.utf8ByteSize) (hnull : '\x00' ∉ name.toList) :
    obstacle? limit (.directory entries) ⟨.root, []⟩ ⟨.relative, [name]⟩
      = some (.inaccessible .nameTooLong) := by
  have hplace : Path.resolve ⟨.root, []⟩ ⟨.relative, [name]⟩ = ⟨.root, [name]⟩ := by
    simp [Path.resolve, Path.join, Path.resolveParts, hplain]
  have hlookup : (directory entries).lookup ⟨.root, [name]⟩ = .error .nameTooLong := by
    simp [lookup, follow, find?, child?, hplain, hnone, missing, hlong]
  have hask : (directory entries).askFile ⟨.root, [name]⟩ = .error .nameTooLong := by
    rw [askFile, hlookup]
    exact ite_self _
  unfold obstacle?
  dsimp only
  rw [hplace, hask]
  simp [Path.join, hnull]

/-! ## Scans -/

variable {c : Config} {paths : List Path}

/-- Whether something is in the way of a scan. -/
def IsObstructed (limit : Option Nat) (root : FileTree) (cwd : Path) (paths : List Path) : Prop :=
  ∃ p ∈ paths, ∃ cause, Obstructs limit root cwd p cause

/-- **A scan fails with an obstacle on one of its paths,** or there is none on any of them. -/
theorem scanWithin_cases (hroot : root.wellNamed = true) (limit : Option Nat) (cwd : Path) (c : Config)
    (paths : List Path) :
    (∃ p ∈ paths, ∃ cause, Obstructs limit root cwd p cause ∧
        scanWithin limit root cwd c paths = .error (.obstacle cause)) ∨
      ¬IsObstructed limit root cwd paths ∧
        scanWithin limit root cwd c paths = (scan root cwd c paths).mapError .pattern := by
  rw [scanWithin]
  cases hfirst : paths.findSome? (obstacle? limit root cwd) with
  | some cause =>
    obtain ⟨p, hp, hcause⟩ := List.exists_of_findSome?_eq_some hfirst
    exact Or.inl ⟨p, hp, cause, obstructs_of_obstacle? hroot hcause, rfl⟩
  | none =>
    refine Or.inr ⟨?_, rfl⟩
    rintro ⟨p, hp, cause, hcause⟩
    exact obstacle?_ne_none hcause (List.findSome?_eq_none_iff.mp hfirst p hp)

theorem not_mem_toList_replicate {c d : Char} (h : c ≠ d) (n : Nat) :
    c ∉ (String.ofList (List.replicate n d)).toList := by
  rw [String.toList_ofList]
  exact fun hmem => h (List.eq_of_mem_replicate hmem)

/-- A name of more bytes than a name may have. -/
def longName : String := String.ofList (List.replicate 300 'a')

/-- It is an obstacle beside a source. -/
theorem scanWithin_longName :
    scanWithin none (.directory [("x.js", .file [])]) ⟨.root, []⟩ {} [⟨.relative, []⟩, ⟨.relative, [longName]⟩]
      = .error (.obstacle (.inaccessible .nameTooLong)) := by
  have hfirst : obstacle? none (.directory [("x.js", .file [])]) ⟨.root, []⟩ ⟨.relative, []⟩ = none := by
    decide +kernel
  have hnull : '\x00' ∉ longName.toList := not_mem_toList_replicate (by decide) 300
  rw [scanWithin, List.findSome?_cons, hfirst, List.findSome?_cons,
    obstacle?_of_longName (by decide +kernel) (by decide +kernel) (by decide +kernel) hnull]

end PatchLint
