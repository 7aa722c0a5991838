import PatchLint.Files.Scan
import PatchLint.Proofs.Files.Lookup

/-!
# What is listed below a path

A tree is a tree of files if the names in each directory differ and none of them is a dot or two dots
(`wellNamed`). Then everything in it has one place, the names that lead to it, and a walk comes by it exactly
there.

* `mem_walk_iff` — a walk from a place comes by what names lead to from there
* `lookup_eq_ok_iff` — a path without dots denotes what is at its place
* `mem_sourcesUnder_iff` — the sources at or below a path
-/

namespace PatchLint

namespace FileTree

/-! ## Names -/

mutual

/-- Whether the names in each directory differ and none of them is a dot or two dots. -/
def wellNamed : FileTree → Bool
  | .file _ | .locked _ => true
  | .directory entries => wellNamedEntries entries

/-- The same for the entries of a directory and everything below them. -/
def wellNamedEntries : List (String × FileTree) → Bool
  | [] => true
  | (name, t) :: rest =>
    name != "." && name != ".." && !(rest.map (·.1)).contains name && t.wellNamed && wellNamedEntries rest

end

theorem wellNamedEntries_cons {name : String} {t : FileTree} {rest : List (String × FileTree)} :
    wellNamedEntries ((name, t) :: rest) = true ↔
      (name ≠ "." ∧ name ≠ "..") ∧ name ∉ rest.map (·.1) ∧ t.wellNamed = true ∧ wellNamedEntries rest = true := by
  simp only [wellNamedEntries, Bool.and_eq_true, bne_iff_ne, Bool.not_eq_true', List.contains_eq_mem,
    decide_eq_false_iff_not, and_assoc]

theorem entryOf?_eq_some_iff {entries : List (String × FileTree)} (h : wellNamedEntries entries = true)
    {name : String} {t : FileTree} : entryOf? name entries = some t ↔ (name, t) ∈ entries := by
  induction entries with
  | nil => simp [entryOf?]
  | cons entry entries ih =>
    obtain ⟨other, t'⟩ := entry
    obtain ⟨-, hother, -, hrest⟩ := wellNamedEntries_cons.mp h
    rw [entryOf?, List.mem_cons, Prod.mk.injEq]
    by_cases hname : other = name
    · subst hname
      have habsent : (other, t) ∉ entries := fun hmem => hother (List.mem_map_of_mem hmem)
      simp [habsent, eq_comm]
    · rw [if_neg hname, ih hrest]
      simp [Ne.symm hname]

theorem wellNamed_of_mem {entries : List (String × FileTree)} (h : wellNamedEntries entries = true)
    {name : String} {t : FileTree} (hmem : (name, t) ∈ entries) :
    (name ≠ "." ∧ name ≠ "..") ∧ t.wellNamed = true := by
  induction entries with
  | nil => cases hmem
  | cons entry entries ih =>
    obtain ⟨hplain, -, ht, hrest⟩ := wellNamedEntries_cons.mp h
    rcases List.mem_cons.mp hmem with rfl | hmem
    · exact ⟨hplain, ht⟩
    · exact ih hrest hmem

/-- **What names lead to is well named,** and so are they. -/
theorem wellNamed_of_find? {t t' : FileTree} {names : List String} (h : t.wellNamed = true)
    (hfind : t.find? names = some t') : IsPlain names ∧ t'.wellNamed = true := by
  induction names generalizing t with
  | nil =>
    cases hfind
    exact ⟨isPlain_nil, h⟩
  | cons name names ih =>
    rw [find?] at hfind
    obtain ⟨child, hentry, hbelow⟩ := Option.bind_eq_some_iff.mp hfind
    cases t with
    | file bytes | locked isDirectory => cases hentry
    | directory entries =>
      rw [wellNamed] at h
      obtain ⟨hplain, hchild⟩ := wellNamed_of_mem h ((entryOf?_eq_some_iff h).mp hentry)
      obtain ⟨hnames, ht'⟩ := ih hchild hbelow
      exact ⟨List.forall_mem_cons.mpr ⟨hplain, hnames⟩, ht'⟩

/-! ## Walking -/

theorem mem_walkEntries_iff {place : Path} {entries : List (String × FileTree)} {item : Path × FileTree} :
    item ∈ walkEntries place entries ↔ ∃ name t, (name, t) ∈ entries ∧ item ∈ t.walk (place.child name) := by
  induction entries with
  | nil => simp [walkEntries]
  | cons entry entries ih =>
    obtain ⟨name, t⟩ := entry
    rw [walkEntries, List.mem_append, ih]
    constructor
    · rintro (hitem | ⟨name', t', hmem, hitem⟩)
      · exact ⟨name, t, List.mem_cons_self, hitem⟩
      · exact ⟨name', t', List.mem_cons_of_mem _ hmem, hitem⟩
    · rintro ⟨name', t', hmem, hitem⟩
      rcases List.mem_cons.mp hmem with heq | hmem
      · cases heq
        exact Or.inl hitem
      · exact Or.inr ⟨name', t', hmem, hitem⟩

/-- What a walk comes by is found by the names below the place. -/
theorem exists_of_mem_walk {t found : FileTree} (h : t.wellNamed = true) {place p : Path}
    (hmem : (p, found) ∈ t.walk place) :
    ∃ names, p = { place with parts := place.parts ++ names } ∧ t.find? names = some found := by
  match t with
  | .file _ | .locked _ =>
    rw [walk, List.mem_singleton] at hmem
    cases hmem
    exact ⟨[], by rw [List.append_nil], rfl⟩
  | .directory entries =>
    rw [wellNamed] at h
    rw [walk] at hmem
    rcases List.mem_cons.mp hmem with heq | hmem
    · cases heq
      exact ⟨[], by rw [List.append_nil], rfl⟩
    obtain ⟨name, child, hentry, hmem⟩ := mem_walkEntries_iff.mp hmem
    obtain ⟨names, rfl, hfind⟩ := exists_of_mem_walk (wellNamed_of_mem h hentry).2 hmem
    refine ⟨name :: names, ?_, ?_⟩
    · rw [Path.child, List.append_assoc, List.singleton_append]
    · rw [find?, child?, (entryOf?_eq_some_iff h).mpr hentry, Option.bind_some, hfind]
termination_by sizeOf t
decreasing_by
  have hlt := List.sizeOf_lt_of_mem hentry
  simp only [Prod.mk.sizeOf_spec, directory.sizeOf_spec] at hlt ⊢
  omega

/-- **A walk comes by what names lead to.** -/
theorem mem_walk_iff {t found : FileTree} (h : t.wellNamed = true) {place p : Path} :
    (p, found) ∈ t.walk place ↔
      ∃ names, p = { place with parts := place.parts ++ names } ∧ t.find? names = some found := by
  refine ⟨exists_of_mem_walk h, ?_⟩
  rintro ⟨names, rfl, hfind⟩
  exact mem_walk_of_find? hfind

/-! ## Paths -/

/-- Whether a path is the place of a file, whether it may be read or not. -/
def HasFile (root : FileTree) (p : Path) : Prop :=
  ∃ t, root.find? p.parts = some t ∧ t.isDirectory = false

/-- **A path without dots denotes what is at its place.** -/
theorem lookup_eq_ok_iff {root t : FileTree} {p : Path} (h : IsPlain p.parts) :
    root.lookup p = .ok t ↔ root.find? p.parts = some t := by
  refine ⟨fun hlookup => ?_, fun hfind => follow_of_find? h hfind⟩
  have hplace := find?_of_follow hlookup
  rwa [placeFrom_of_isPlain h, List.nil_append] at hplace

theorem isFile_iff {root : FileTree} {p : Path} (h : IsPlain p.parts) :
    root.isFile p = true ↔ root.HasFile p := by
  simp only [HasFile, ← lookup_eq_ok_iff h, isFile]
  cases root.lookup p with
  | ok t => simp
  | error fault => simp

theorem isDir_iff {root : FileTree} {p : Path} (h : IsPlain p.parts) :
    root.isDir p = true ↔ ∃ t, root.find? p.parts = some t ∧ t.isDirectory = true := by
  simp only [← lookup_eq_ok_iff h, isDir]
  cases root.lookup p with
  | ok t => simp
  | error fault => simp

theorem isPlain_resolve (cwd p : Path) : IsPlain (Path.resolve cwd p).parts :=
  isPlain_nil.placeFrom (cwd.join p).parts

end FileTree

open FileTree

theorem Path.isUnder_iff {p base : Path} :
    p.isUnder base = true ↔ ∃ names, p = { base with parts := base.parts ++ names } := by
  rw [isUnder, Bool.and_eq_true, decide_eq_true_iff, List.isPrefixOf_iff_prefix]
  constructor
  · rintro ⟨hanchor, names, hparts⟩
    exact ⟨names, by rw [hparts, ← hanchor]⟩
  · rintro ⟨names, rfl⟩
    exact ⟨rfl, List.prefix_append _ _⟩

/-- **The sources at or below a path** are the files with a known suffix that lie there. -/
theorem mem_sourcesUnder_iff {root : FileTree} (hroot : root.wellNamed = true) {place file : Path}
    (hplace : IsPlain place.parts) :
    file ∈ sourcesUnder root place ↔
      root.HasFile file ∧ file.isUnder place = true ∧ (languageOf? file).isSome = true := by
  have hlisted : file ∈ sourcesUnder root place ↔
      ∃ t, root.find? place.parts = some t ∧
        (∃ found, (file, found) ∈ t.walk place ∧ found.isDirectory = false) ∧
        (languageOf? file).isSome = true := by
    simp only [sourcesUnder, ← lookup_eq_ok_iff hplace]
    cases hlookup : root.lookup place with
    | error e => simp
    | ok t => simp
  rw [hlisted]
  constructor
  · rintro ⟨t, hfind, ⟨found, hmem, hfile⟩, hlanguage⟩
    obtain ⟨names, rfl, hbelow⟩ := (mem_walk_iff (wellNamed_of_find? hroot hfind).2).mp hmem
    refine ⟨⟨found, ?_, hfile⟩, Path.isUnder_iff.mpr ⟨names, rfl⟩, hlanguage⟩
    rw [find?_append, hfind, Option.bind_some, hbelow]
  · rintro ⟨⟨found, hfind, hfile⟩, hunder, hlanguage⟩
    obtain ⟨names, rfl⟩ := Path.isUnder_iff.mp hunder
    rw [find?_append] at hfind
    obtain ⟨t, hfind, hbelow⟩ := Option.bind_eq_some_iff.mp hfind
    exact ⟨t, hfind, ⟨found, mem_walk_of_find? hbelow, hfile⟩, hlanguage⟩

end PatchLint
