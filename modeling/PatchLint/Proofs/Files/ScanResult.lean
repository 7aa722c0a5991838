import Mathlib.Data.List.Lex
import Mathlib.Data.String.Basic
import PatchLint.Proofs.Files.DefaultPatterns
import PatchLint.Proofs.Files.Listing
import PatchLint.Proofs.Files.Obstacles
import PatchLint.Proofs.Files.Scanning
import PatchLint.Proofs.Order.StableSort

/-!
# What a scan gives

A scan collects the sources below each path, decides about each of them, and gives the included ones in path
order. A file that several paths reach is decided about in the same way each time: its patterns are relative to
the base that the first of these paths gives it.

* `Path.le_iff` — the order of paths is that of their components
* `baseFor_eq` — the base of a file is the first that is given (`baseGivenBy?`)
* `selection_eq_included_iff` — a file is included by a pattern, and excluded by none
* `scan_exact` — a scan gives the included sources, and each of them once, unless something is in its way
-/

namespace PatchLint

open FileTree

/-! ## The order of paths -/

namespace Path

theorem partsLE_iff {xs ys : List String} : partsLE xs ys = true ↔ xs ≤ ys := by
  induction xs generalizing ys with
  | nil => exact iff_of_true (by cases ys <;> rfl) (not_lt.mp (List.not_lt_nil ys))
  | cons x xs ih =>
    cases ys with
    | nil => exact iff_of_false Bool.false_ne_true (not_le.mpr (List.nil_lt_cons x xs))
    | cons y ys =>
      have hlt : y :: ys < x :: xs ↔ y < x ∨ y = x ∧ ys < xs := List.cons_lt_cons_iff
      rw [partsLE, ← not_lt, hlt]
      by_cases hxy : x = y
      · simp [hxy, ih]
      · rw [if_neg hxy, decide_eq_true_iff, not_or, not_lt]
        exact ⟨fun h => ⟨h.le, fun heq => hxy heq.1.symm⟩, fun h => lt_of_le_of_ne h.1 hxy⟩

/-- **Paths are ordered as their components are.** -/
theorem le_iff (p q : Path) : p.le q = true ↔ p.orderKey ≤ q.orderKey := partsLE_iff

/-- Two paths that start alike and have the same key are the same. -/
theorem eq_of_orderKey_eq {p q : Path} (hanchor : p.anchor = q.anchor) (hkey : p.orderKey = q.orderKey) :
    p = q := by
  obtain ⟨anchor, parts⟩ := p
  obtain ⟨anchor', parts'⟩ := q
  cases hanchor
  cases anchor <;> simpa [orderKey] using hkey

end Path

/-! ## Included files -/

section Included

variable {seen seen' : List (Path × Selection)}

theorem mem_includedFiles {file : Path} : file ∈ includedFiles seen ↔ (file, .included) ∈ seen := by
  simp [includedFiles, List.mem_mergeSort]

theorem pairwise_includedFiles : (includedFiles seen).Pairwise fun p q => p.orderKey ≤ q.orderKey :=
  pairwise_mergeSort_key Path.le_iff _

/-- **The included files strictly increase** if they all start alike. -/
theorem pairwise_includedFiles_lt (hanchor : ∀ file ∈ includedFiles seen, file.anchor = .root) :
    (includedFiles seen).Pairwise fun p q => q.le p = false := by
  refine (pairwise_includedFiles.and (nodup_includedFiles seen)).imp_of_mem ?_
  intro p q hp hq h
  obtain ⟨hle, hne⟩ := h
  refine Bool.eq_false_iff.mpr fun hge => hne ?_
  exact Path.eq_of_orderKey_eq ((hanchor p hp).trans (hanchor q hq).symm)
    (le_antisymm hle ((Path.le_iff q p).mp hge))

/-- **The included files are determined by the decisions,** in whatever order they are made. -/
theorem includedFiles_congr (hanchor : ∀ file ∈ includedFiles seen, file.anchor = .root)
    (h : ∀ file, (file, Selection.included) ∈ seen ↔ (file, Selection.included) ∈ seen') :
    includedFiles seen = includedFiles seen' := by
  have hmem : ∀ file, file ∈ includedFiles seen ↔ file ∈ includedFiles seen' := by
    intro file
    rw [mem_includedFiles, mem_includedFiles, h]
  refine List.Perm.eq_of_pairwise ?_ pairwise_includedFiles pairwise_includedFiles
    ((List.perm_ext_iff_of_nodup (nodup_includedFiles seen) (nodup_includedFiles seen')).mpr hmem)
  intro p q hp hq hle hge
  exact Path.eq_of_orderKey_eq ((hanchor p hp).trans (hanchor q ((hmem q).mpr hq)).symm) (le_antisymm hle hge)

end Included

/-! ## Decisions -/

/-- **A file is included** by a pattern, unless it is excluded by one. -/
theorem selection_eq_included_iff {c : Config} {base file : Path} :
    selection c base file = .ok .included ↔
      matchesFrom base file c.included = .ok true ∧ matchesFrom base file c.excluded = .ok false := by
  rw [selection]
  split
  · next e he => simp [he]
  · next he => simp [he]
  · next he =>
    split
    · next e hi => simp [hi]
    · next hi => simp [hi, he]
    · next hi => simp [hi]

theorem mem_decided_iff {seen : List (Path × Except PatternFault Selection)} (h : surveyFault? seen = none)
    {file : Path} {s : Selection} : (file, s) ∈ decided seen ↔ (file, .ok s) ∈ seen := by
  induction seen with
  | nil => simp [decided]
  | cons item seen ih =>
    obtain ⟨other, decision⟩ := item
    cases decision with
    | error e => simp [surveyFault?] at h
    | ok s' =>
      have hrest : surveyFault? seen = none := by simpa [surveyFault?] using h
      simp [decided, ih hrest]

theorem mem_survey_iff {root : FileTree} {cwd : Path} {c : Config} {paths : List Path} {file : Path}
    {decision : Except PatternFault Selection} :
    (file, decision) ∈ survey root cwd c paths ↔
      (∃ p ∈ paths, file ∈ sourcesUnder root (Path.resolve cwd p)) ∧
        selection c (baseFor root cwd file paths) file = decision := by
  simp only [survey, List.mem_map, List.mem_flatMap, Prod.mk.injEq]
  constructor
  · rintro ⟨_, hfile, rfl, hdecision⟩
    exact ⟨hfile, hdecision⟩
  · rintro ⟨hfile, hdecision⟩
    exact ⟨file, hfile, rfl, hdecision⟩

/-! ## Bases -/

/-- The base that a path gives a file: the directory of the file if the path is the file itself, and the path if
it is a directory that the file lies in. -/
def baseGivenBy? (root : FileTree) (cwd file p : Path) : Option Path :=
  let place := Path.resolve cwd p
  if file = place then some file.parent
  else if root.isDir place && file.isUnder place then some place else none

/-- What a file lies in is a directory. -/
theorem exists_directory_of_isUnder {root : FileTree} {file place : Path} (hfile : root.HasFile file)
    (hunder : file.isUnder place = true) (hne : file ≠ place) :
    ∃ entries, root.find? place.parts = some (.directory entries) := by
  obtain ⟨found, hfind, -⟩ := hfile
  obtain ⟨names, rfl⟩ := Path.isUnder_iff.mp hunder
  rw [find?_append] at hfind
  obtain ⟨t, ht, hbelow⟩ := Option.bind_eq_some_iff.mp hfind
  cases t with
  | directory entries => exact ⟨entries, ht⟩
  | file _ | locked _ =>
    cases names with
    | nil =>
      rw [List.append_nil] at hne
      exact absurd rfl hne
    | cons name names => cases hbelow

theorem baseFor_cons {root : FileTree} {file : Path} (hfile : root.HasFile file) (cwd p : Path)
    (paths : List Path) :
    baseFor root cwd file (p :: paths) =
      (baseGivenBy? root cwd file p).getD (baseFor root cwd file paths) := by
  have hplain := isPlain_resolve cwd p
  rw [baseFor, baseGivenBy?]
  by_cases hsame : file = Path.resolve cwd p
  · have hisFile : root.isFile (Path.resolve cwd p) = true := (isFile_iff hplain).mpr (hsame ▸ hfile)
    rw [if_pos hisFile, if_pos hsame, if_pos hsame, ← hsame, Option.getD_some]
  rw [if_neg hsame, if_neg hsame]
  by_cases hunder : file.isUnder (Path.resolve cwd p) = true
  · obtain ⟨entries, hdir⟩ := exists_directory_of_isUnder hfile hunder hsame
    have hisDir : root.isDir (Path.resolve cwd p) = true := (isDir_iff hplain).mpr ⟨_, hdir, rfl⟩
    have hnoFile : ¬root.isFile (Path.resolve cwd p) = true := by
      rw [isFile_iff hplain]
      rintro ⟨found, hfind, hfile⟩
      rw [hdir] at hfind
      cases hfind
      cases hfile
    rw [if_neg hnoFile, if_pos hunder, if_pos (by rw [hisDir, hunder]; rfl), Option.getD_some]
  · rw [if_neg hunder, ite_self, if_neg (by simp [hunder]), Option.getD_none]

/-- **The base of a file is the first that one of the paths gives it.** -/
theorem baseFor_eq {root : FileTree} {file : Path} (hfile : root.HasFile file) (cwd : Path)
    (paths : List Path) :
    baseFor root cwd file paths = (paths.findSome? (baseGivenBy? root cwd file)).getD file.parent := by
  induction paths with
  | nil => rfl
  | cons p paths ih =>
    rw [baseFor_cons hfile, List.findSome?_cons]
    cases baseGivenBy? root cwd file p with
    | none => exact ih
    | some base => rfl

/-- A file that a path reaches is given a base. -/
theorem isSome_baseGivenBy? {root : FileTree} {cwd file p : Path} (hfile : root.HasFile file)
    (hunder : file.isUnder (Path.resolve cwd p) = true) : (baseGivenBy? root cwd file p).isSome = true := by
  rw [baseGivenBy?]
  by_cases hsame : file = Path.resolve cwd p
  · rw [if_pos hsame]
    rfl
  · obtain ⟨entries, hdir⟩ := exists_directory_of_isUnder hfile hunder hsame
    have hisDir := (isDir_iff (isPlain_resolve cwd p)).mpr ⟨_, hdir, rfl⟩
    rw [if_neg hsame, if_pos (by rw [hisDir, hunder]; rfl)]
    rfl

/-! ## Scans -/

/-- Whether a path is the place of a file whose suffix is known, in any case. -/
def IsSource (root : FileTree) (file : Path) : Prop :=
  root.HasFile file ∧ lowerAscii file.suffix ∈ sourceSuffixes.map (·.1)

theorem mem_sourcesUnder_resolve_iff {root : FileTree} (hroot : root.wellNamed = true) {cwd file p : Path} :
    file ∈ sourcesUnder root (Path.resolve cwd p) ↔
      IsSource root file ∧ file.isUnder (Path.resolve cwd p) = true := by
  rw [mem_sourcesUnder_iff hroot (isPlain_resolve cwd p), languageOf?_isSome_iff, IsSource, ← and_assoc,
    and_right_comm]

/-- What is included of what a scan looks at. -/
theorem mem_scanned_iff {root : FileTree} (hroot : root.wellNamed = true) {c : Config} {cwd : Path}
    {paths : List Path} (hnone : surveyFault? (survey root cwd c paths) = none) {file : Path} :
    file ∈ includedFiles (decided (survey root cwd c paths)) ↔
      IsSource root file ∧ (∃ p ∈ paths, file.isUnder (Path.resolve cwd p) = true) ∧
        ∃ base, paths.findSome? (baseGivenBy? root cwd file) = some base ∧
          matchesFrom base file c.included = .ok true ∧ matchesFrom base file c.excluded = .ok false := by
  rw [mem_includedFiles, mem_decided_iff hnone, mem_survey_iff]
  simp only [mem_sourcesUnder_resolve_iff hroot, selection_eq_included_iff]
  constructor
  · rintro ⟨⟨p, hp, hsource, hunder⟩, hselected⟩
    refine ⟨hsource, ⟨p, hp, hunder⟩, ?_⟩
    obtain ⟨base, hbase⟩ : ∃ base, paths.findSome? (baseGivenBy? root cwd file) = some base :=
      Option.isSome_iff_exists.mp
        (List.findSome?_isSome_iff.mpr ⟨p, hp, isSome_baseGivenBy? hsource.1 hunder⟩)
    rw [baseFor_eq hsource.1, hbase, Option.getD_some] at hselected
    exact ⟨base, hbase, hselected⟩
  · rintro ⟨hsource, ⟨p, hp, hunder⟩, base, hbase, hselected⟩
    rw [baseFor_eq hsource.1, hbase, Option.getD_some]
    exact ⟨⟨p, hp, hsource, hunder⟩, hselected⟩

/-- The files that are scanned have been reached through absolute paths. -/
theorem anchor_of_mem_scanned {root : FileTree} (hroot : root.wellNamed = true) {c : Config} {cwd : Path}
    {paths : List Path} (hnone : surveyFault? (survey root cwd c paths) = none) {file : Path}
    (hfile : file ∈ includedFiles (decided (survey root cwd c paths))) : file.anchor = .root := by
  obtain ⟨-, ⟨p, -, hunder⟩, -⟩ := (mem_scanned_iff hroot hnone).mp hfile
  obtain ⟨names, rfl⟩ := Path.isUnder_iff.mp hunder
  rfl

/-- **A scan is exact, unless something is in its way.** If so, it fails with what is. If not, it gives a list of
files that strictly increases, so no file twice. A file is in it exactly if it is a source at or below one of the
paths and, relative to the base that the first of the paths gives it, some pattern includes it and none excludes
it. There are no symbolic links in the tree. -/
theorem scan_exact {root : FileTree} (hroot : root.wellNamed = true) {c : Config} (hc : c.HasTextPatterns)
    (limit : Option Nat) (cwd : Path) (paths : List Path) :
    (∃ p ∈ paths, ∃ cause, Obstructs limit root cwd p cause ∧
        scanWithin limit root cwd c paths = .error (.obstacle cause)) ∨
      ¬IsObstructed limit root cwd paths ∧
        ∃ files, scanWithin limit root cwd c paths = .ok files ∧ (files.Pairwise fun p q => q.le p = false) ∧
          ∀ file, file ∈ files ↔
            IsSource root file ∧ (∃ p ∈ paths, file.isUnder (Path.resolve cwd p) = true) ∧
              ∃ base, paths.findSome? (baseGivenBy? root cwd file) = some base ∧
                matchesFrom base file c.included = .ok true ∧
                matchesFrom base file c.excluded = .ok false := by
  rcases scanWithin_cases hroot limit cwd c paths with hfails | ⟨hfree, hscan⟩
  · exact Or.inl hfails
  have hnone := surveyFault?_survey hc root cwd paths
  rw [scan_eq_ok hc root cwd paths] at hscan
  refine Or.inr ⟨hfree, _, hscan, ?_, fun file => mem_scanned_iff hroot hnone⟩
  exact pairwise_includedFiles_lt fun file hfile => anchor_of_mem_scanned hroot hnone hfile

/-- A project that is scanned through two directories, one in the other. What is built is excluded only as seen from
the inner one, and a file with another suffix is passed over. -/
def projectTree : FileTree :=
  .directory [("app", .directory [("notes.md", .file []),
    ("src", .directory [("dist", .directory [("a.js", .file [])]), ("b.ts", .file [])])])]

theorem scan_exact_inner :
    projectTree.wellNamed = true ∧ ({} : Config).HasTextPatterns ∧
      ∃ files, scanWithin (some 10) projectTree ⟨.root, ["app"]⟩ {} [⟨.relative, ["src"]⟩, ⟨.relative, []⟩]
          = .ok files ∧
        ⟨.root, ["app", "src", "b.ts"]⟩ ∈ files ∧ ⟨.root, ["app", "src", "dist", "a.js"]⟩ ∉ files ∧
        ⟨.root, ["app", "notes.md"]⟩ ∉ files := by
  have hroot : projectTree.wellNamed = true := by decide
  refine ⟨hroot, Config.hasTextPatterns_default, ?_⟩
  have hfree : [(⟨.relative, ["src"]⟩ : Path), ⟨.relative, []⟩].findSome?
      (obstacle? (some 10) projectTree ⟨.root, ["app"]⟩) = none := by decide +kernel
  obtain ⟨p, hp, cause, hcause, -⟩ | ⟨-, files, hscan, -, hmem⟩ := scan_exact hroot
    Config.hasTextPatterns_default (some 10) ⟨.root, ["app"]⟩ [⟨.relative, ["src"]⟩, ⟨.relative, []⟩]
  · exact absurd (List.findSome?_eq_none_iff.mp hfree p hp) (obstacle?_ne_none hcause)
  refine ⟨files, hscan, (hmem _).mpr ?_, fun hfile => ?_, fun hfile => ?_⟩
  · refine ⟨⟨⟨.file [], rfl, rfl⟩, by decide⟩, ⟨⟨.relative, ["src"]⟩, by decide, by decide⟩,
      ⟨.root, ["app", "src"]⟩, by decide, by decide +kernel, by decide +kernel⟩
  · obtain ⟨-, -, base, hbase, -, hexcluded⟩ := (hmem _).mp hfile
    obtain rfl : ⟨.root, ["app", "src"]⟩ = base := Option.some.inj hbase
    exact absurd hexcluded (by decide +kernel)
  · obtain ⟨⟨-, hsuffix⟩, -⟩ := (hmem _).mp hfile
    exact absurd hsuffix (by decide)

/-- A source is not scanned if another path has a name that is too long, beside a directory that may not be read,
or beside directories that are nested too deeply. -/
theorem not_scan_exact_obstructed :
    let source : String × FileTree := ("x.js", .file [])
    let scanned (limit : Option Nat) (entries : List (String × FileTree)) (paths : List Path) :=
      scanWithin limit (.directory (source :: entries)) ⟨.root, []⟩ {} (⟨.relative, []⟩ :: paths)
    scanned none [] [⟨.relative, [longName]⟩] = .error (.obstacle (.inaccessible .nameTooLong)) ∧
      scanned none [("private", .locked true)] [] = .error (.obstacle (.inaccessible .denied)) ∧
      scanned (some 2) [("a", .directory [("b", .empty)])] [] = .error (.obstacle .tooDeep) ∧
      ¬∀ (limit : Option Nat) (root : FileTree) (cwd : Path) (c : Config) (paths : List Path),
        root.wellNamed = true → c.HasTextPatterns → ∃ files, scanWithin limit root cwd c paths = .ok files := by
  intro source scanned
  have hlocked : scanned none [("private", .locked true)] [] = .error (.obstacle (.inaccessible .denied)) := by
    decide +kernel
  refine ⟨scanWithin_longName, hlocked, by decide +kernel, fun h => ?_⟩
  obtain ⟨files, hfiles⟩ := h none (.directory [source, ("private", .locked true)]) ⟨.root, []⟩ {}
    [⟨.relative, []⟩] (by decide) Config.hasTextPatterns_default
  cases hfiles.symm.trans hlocked

end PatchLint
