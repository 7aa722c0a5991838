import PatchLint.Proofs.Files.Lookup

/-!
# What writing files leaves alone

Files are written at places that are given by names, and read by paths, which may have dots.

* `find?_put_self`, `find?_put_elsewhere` — what one file that is put into a tree does to the tree
* `follow_of_keepsDirectories` — a path leads to its place in a tree in which directories have stayed
  directories, too
* `find?_writeAll` — after many files have been written, a place holds one that was written there, or what
  it held before
* `exists_readBytes_writeAll` — so a file that can be read before can be read after, and holds the same
  unless it was written
-/

namespace PatchLint.FileTree

/-! ## Entries -/

theorem entryOf?_putEntry_self (name : String) (t : FileTree) (entries : List (String × FileTree)) :
    entryOf? name (putEntry name t entries) = some t := by
  induction entries with
  | nil => rw [putEntry, entryOf?, if_pos rfl]
  | cons entry entries ih =>
    obtain ⟨other, old⟩ := entry
    rw [putEntry]
    by_cases hname : other = name
    · rw [if_pos hname, entryOf?, if_pos hname]
    · rw [if_neg hname, entryOf?, if_neg hname, ih]

theorem entryOf?_putEntry_ne {name name' : String} (h : name' ≠ name) (t : FileTree)
    (entries : List (String × FileTree)) :
    entryOf? name' (putEntry name t entries) = entryOf? name' entries := by
  induction entries with
  | nil => exact if_neg fun e => h e.symm
  | cons entry entries ih =>
    obtain ⟨other, old⟩ := entry
    rw [putEntry]
    by_cases hname : other = name
    · rw [if_pos hname, entryOf?, entryOf?, if_neg fun e => h (e.symm.trans hname),
        if_neg fun e => h (e.symm.trans hname)]
    · rw [if_neg hname, entryOf?, entryOf?, ih]

/-! ## Places -/

theorem find?_directory_cons (entries : List (String × FileTree)) (name : String)
    (rest : List String) :
    (directory entries).find? (name :: rest) = (entryOf? name entries).bind (·.find? rest) := rfl

/-- Below a file there is nothing. -/
theorem eq_of_find?_file {t t' : FileTree} {place other : List String} {bytes : List UInt8}
    (h : t.find? place = some (.file bytes)) (hother : t.find? other = some t')
    (hbelow : place <+: other) : other = place := by
  induction place generalizing t other with
  | nil =>
    cases h
    cases other with
    | nil => rfl
    | cons name rest => cases hother
  | cons name place ih =>
    obtain ⟨rest, rfl⟩ := hbelow
    cases t with
    | file bytes' | locked isDirectory => cases h
    | directory entries =>
      rw [find?_directory_cons] at h
      rw [List.cons_append, find?_directory_cons] at hother
      obtain ⟨child, hchild, h⟩ := Option.bind_eq_some_iff.mp h
      rw [hchild, Option.bind_some] at hother
      rw [List.cons_append, ih h hother (List.prefix_append place rest)]

/-- **A file is replaced.** -/
theorem find?_put_self {t : FileTree} {place : List String} {bytes : List UInt8}
    (h : t.find? place = some (.file bytes)) (new : FileTree) :
    (t.put new place).find? place = some new := by
  induction place generalizing t with
  | nil => rw [put, find?]
  | cons name place ih =>
    cases t with
    | file bytes' | locked isDirectory => cases h
    | directory entries =>
      rw [find?_directory_cons] at h
      obtain ⟨child, hchild, h⟩ := Option.bind_eq_some_iff.mp h
      rw [put, find?_directory_cons, entryOf?_putEntry_self, Option.bind_some, hchild]
      exact ih h

/-- Whether something is still there: a directory is one, and a file holds what it held. -/
def Stays : FileTree → FileTree → Prop
  | .directory _, t => ∃ entries, t = .directory entries
  | .file bytes, t => t = .file bytes
  | .locked isDirectory, t => t = .locked isDirectory

theorem Stays.refl : ∀ t : FileTree, Stays t t
  | .directory entries => ⟨entries, rfl⟩
  | .file _ => rfl
  | .locked _ => rfl

/-- **What is not at the written place or below it stays.** -/
theorem find?_put_elsewhere {t t' : FileTree} {place other : List String}
    (h : ¬place <+: other) (hother : t.find? other = some t') (new : FileTree) :
    ∃ t'', (t.put new place).find? other = some t'' ∧ Stays t' t'' := by
  induction place generalizing t other with
  | nil => exact absurd List.nil_prefix h
  | cons name place ih =>
    cases t with
    | file bytes | locked isDirectory => exact ⟨t', hother, Stays.refl t'⟩
    | directory entries =>
      rw [put]
      cases other with
      | nil =>
        cases hother
        exact ⟨_, rfl, _, rfl⟩
      | cons name' rest =>
        rw [find?_directory_cons] at hother ⊢
        by_cases hname : name' = name
        · subst hname
          obtain ⟨child, hchild, hother⟩ := Option.bind_eq_some_iff.mp hother
          rw [entryOf?_putEntry_self, Option.bind_some, hchild, Option.getD_some]
          exact ih (fun hfront => h (List.cons_prefix_cons.mpr ⟨rfl, hfront⟩)) hother
        · rw [entryOf?_putEntry_ne hname]
          exact ⟨t', hother, Stays.refl t'⟩

theorem Stays.trans {t t' t'' : FileTree} (h : Stays t t') (h' : Stays t' t'') : Stays t t'' := by
  cases t with
  | file bytes =>
    obtain rfl : t' = .file bytes := h
    exact h'
  | locked isDirectory =>
    obtain rfl : t' = .locked isDirectory := h
    exact h'
  | directory entries =>
    obtain ⟨entries', rfl⟩ := h
    exact h'

/-! ## Directories that stay -/

/-- Whether the directories of a tree are directories in another one. -/
def KeepsDirectories (root root' : FileTree) : Prop :=
  ∀ place entries, IsPlain place → root.find? place = some (.directory entries) →
    ∃ entries', root'.find? place = some (.directory entries')

/-- **A path leads to its place as long as directories stay directories.** -/
theorem follow_of_keepsDirectories {root root' t t' : FileTree} {place steps : List String}
    (hdirs : KeepsDirectories root root') (hplace : IsPlain place)
    (h : follow root place steps = .ok t)
    (hfind : root'.find? (placeFrom place steps) = some t') : follow root' place steps = .ok t' := by
  induction steps generalizing place with
  | nil =>
    have hfind : root'.find? place = some t' := hfind
    rw [follow, hfind]
  | cons step steps ih =>
    obtain ⟨entries, hdir⟩ := exists_directory_of_follow_cons h
    obtain ⟨entries', hdir'⟩ := hdirs place entries hplace hdir
    rw [follow_cons hdir] at h
    rw [follow_cons hdir']
    exact ih (hplace.stepPlace step) h hfind

theorem readBytes_of_keepsDirectories {root root' : FileTree} {p : Path} {bytes bytes' : List UInt8}
    (hdirs : KeepsDirectories root root') (h : root.readBytes p = .ok bytes)
    (hfind : root'.find? (placeOf p) = some (.file bytes')) : root'.readBytes p = .ok bytes' :=
  readBytes_eq_ok_iff.mpr
    (follow_of_keepsDirectories hdirs isPlain_nil (readBytes_eq_ok_iff.mp h) hfind)

/-! ## Writing -/

/-- Writes files one after another. -/
def writeAll (root : FileTree) (items : List (Path × List UInt8)) : FileTree :=
  items.foldl (fun root item => root.write item.1 item.2) root

/-- **One file is written.** A place without dots holds the new file, or what it held before. -/
theorem find?_write {root t : FileTree} {place : List String} {p : Path}
    (hplace : IsPlain place) (hfind : root.find? place = some t)
    (hfile : IsPlain p.parts → ∃ old, root.find? p.parts = some (.file old)) (bytes : List UInt8) :
    ∃ t', (root.write p bytes).find? place = some t' ∧
      ((p.parts ≠ place ∧ Stays t t') ∨ (p.parts = place ∧ t' = .file bytes)) := by
  by_cases hfront : p.parts <+: place
  · obtain ⟨old, hold⟩ := hfile (hplace.of_front hfront)
    have hsame := eq_of_find?_file hold hfind hfront
    subst hsame
    exact ⟨_, find?_put_self hold _, Or.inr ⟨rfl, rfl⟩⟩
  · obtain ⟨t', hfind', hstays⟩ := find?_put_elsewhere hfront hfind (.file bytes)
    exact ⟨t', hfind', Or.inl ⟨fun e => hfront (e ▸ List.prefix_refl _), hstays⟩⟩

/-- **Many files are written.** A place without dots holds one of those that were written there, or what
it held before. -/
theorem find?_writeAll {root t : FileTree} {place : List String} {items : List (Path × List UInt8)}
    (hplace : IsPlain place) (hfind : root.find? place = some t)
    (hfiles : ∀ item ∈ items, IsPlain item.1.parts →
      ∃ old, root.find? item.1.parts = some (.file old)) :
    ∃ t', (root.writeAll items).find? place = some t' ∧
      (((∀ item ∈ items, item.1.parts ≠ place) ∧ Stays t t') ∨
        ∃ item ∈ items, item.1.parts = place ∧ t' = .file item.2) := by
  induction items generalizing root t with
  | nil => exact ⟨t, hfind, Or.inl ⟨fun _ h => absurd h List.not_mem_nil, Stays.refl t⟩⟩
  | cons item items ih =>
    have hfile := hfiles item List.mem_cons_self
    obtain ⟨t₁, hfind₁, hwritten⟩ := find?_write hplace hfind hfile item.2
    -- what the other files are written over is still a file
    have hfiles₁ : ∀ other ∈ items, IsPlain other.1.parts →
        ∃ old, (root.write item.1 item.2).find? other.1.parts = some (.file old) := by
      intro other hother hplain
      obtain ⟨old, hold⟩ := hfiles other (List.mem_cons_of_mem _ hother) hplain
      obtain ⟨t', hfind', ⟨-, hstays⟩ | ⟨-, rfl⟩⟩ := find?_write hplain hold hfile item.2
      · obtain rfl : t' = .file old := hstays
        exact ⟨old, hfind'⟩
      · exact ⟨item.2, hfind'⟩
    obtain ⟨t', hfind', hrest⟩ := ih hfind₁ hfiles₁
    refine ⟨t', hfind', ?_⟩
    rcases hrest with ⟨hnone, hstays⟩ | ⟨other, hother, hparts, ht'⟩
    · rcases hwritten with ⟨hparts, hstays₁⟩ | ⟨hparts, rfl⟩
      · exact Or.inl ⟨List.forall_mem_cons.mpr ⟨hparts, hnone⟩, hstays₁.trans hstays⟩
      · exact Or.inr ⟨item, List.mem_cons_self, hparts, hstays⟩
    · exact Or.inr ⟨other, List.mem_cons_of_mem _ hother, hparts, ht'⟩

/-- Writing files over files keeps the directories. -/
theorem keepsDirectories_writeAll {root : FileTree} {items : List (Path × List UInt8)}
    (hfiles : ∀ item ∈ items, IsPlain item.1.parts →
      ∃ old, root.find? item.1.parts = some (.file old)) :
    KeepsDirectories root (root.writeAll items) := by
  intro place entries hplace hfind
  obtain ⟨t', hfind', ⟨-, hstays⟩ | ⟨item, hitem, hparts, -⟩⟩ := find?_writeAll hplace hfind hfiles
  · obtain ⟨entries', rfl⟩ := hstays
    exact ⟨entries', hfind'⟩
  · -- where a file is written there was no directory
    obtain ⟨old, hold⟩ := hfiles item hitem (hparts ▸ hplace)
    rw [hparts, hfind] at hold
    cases hold

/-- **What can be read before can be read after.** A file holds what was written at its place, or what it
held before. -/
theorem exists_readBytes_writeAll {root : FileTree} {items : List (Path × List UInt8)}
    (hfiles : ∀ item ∈ items, ∃ old, root.readBytes item.1 = .ok old) {p : Path}
    {bytes : List UInt8} (h : root.readBytes p = .ok bytes) :
    ∃ bytes', (root.writeAll items).readBytes p = .ok bytes' ∧
      (((∀ item ∈ items, item.1.parts ≠ placeOf p) ∧ bytes' = bytes) ∨
        ∃ item ∈ items, item.1.parts = placeOf p ∧ bytes' = item.2) := by
  have hplaces : ∀ item ∈ items, IsPlain item.1.parts →
      ∃ old, root.find? item.1.parts = some (.file old) := by
    intro item hitem hplain
    obtain ⟨old, hold⟩ := hfiles item hitem
    have hfind := find?_of_readBytes hold
    rw [placeOf_of_isPlain hplain] at hfind
    exact ⟨old, hfind⟩
  have hdirs := keepsDirectories_writeAll hplaces
  obtain ⟨t', hfind', ⟨hnone, hstays⟩ | ⟨item, hitem, hparts, rfl⟩⟩ :=
    find?_writeAll (isPlain_placeOf p) (find?_of_readBytes h) hplaces
  · obtain rfl : t' = .file bytes := hstays
    exact ⟨bytes, readBytes_of_keepsDirectories hdirs h hfind', Or.inl ⟨hnone, rfl⟩⟩
  · exact ⟨item.2, readBytes_of_keepsDirectories hdirs h hfind', Or.inr ⟨item, hitem, hparts, rfl⟩⟩

end PatchLint.FileTree
