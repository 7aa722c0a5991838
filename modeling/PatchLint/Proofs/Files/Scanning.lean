import PatchLint.Files.Scan
import PatchLint.Proofs.Scope.Collections

/-!
# Scanning comes to an end

Patterns are kept as they stand in a configuration, and one that is no text is noticed only when a file
is compared with it. If all of them are texts (`Config.HasTextPatterns`), every file is decided about;
so a scan that meets no obstacle gives a list of files, and no file twice (`exists_scanWithin`).
-/

namespace PatchLint

/-- Whether all patterns of a configuration are texts. -/
def Config.HasTextPatterns (c : Config) : Prop := ∀ v ∈ c.included ++ c.excluded, ∃ s, v = .str s

theorem Config.hasTextPatterns_default : ({} : Config).HasTextPatterns := by
  intro v hv
  rcases List.mem_append.mp hv with hv | hv
  · obtain ⟨s, -, rfl⟩ := List.mem_map.mp hv
    exact ⟨s, rfl⟩
  · obtain ⟨s, -, rfl⟩ := List.mem_map.mp hv
    exact ⟨s, rfl⟩

/-! ## One file -/

theorem exists_anyMatch (path : Text) {patterns : List Value} (h : ∀ v ∈ patterns, ∃ s, v = .str s) :
    ∃ found, anyMatch path patterns = .ok found := by
  induction patterns with
  | nil => exact ⟨false, rfl⟩
  | cons p ps ih =>
    obtain ⟨s, rfl⟩ := h p List.mem_cons_self
    rw [anyMatch, Value.globMatch]
    cases globMatch s.toList path with
    | true => exact ⟨true, rfl⟩
    | false => exact ih fun v hv => h v (List.mem_cons_of_mem _ hv)

/-- **Every file is decided about.** -/
theorem exists_selection {c : Config} (h : c.HasTextPatterns) (base file : Path) :
    ∃ s, selection c base file = .ok s := by
  obtain ⟨excluded, hexcluded⟩ : ∃ found, matchesFrom base file c.excluded = .ok found :=
    exists_anyMatch _ fun v hv => h v (List.mem_append_right _ hv)
  obtain ⟨included, hincluded⟩ : ∃ found, matchesFrom base file c.included = .ok found :=
    exists_anyMatch _ fun v hv => h v (List.mem_append_left _ hv)
  rw [selection, hexcluded, hincluded]
  cases excluded with
  | true => exact ⟨.excluded, rfl⟩
  | false =>
    cases included with
    | true => exact ⟨.included, rfl⟩
    | false => exact ⟨.unmatched, rfl⟩

/-! ## All files -/

theorem surveyFault?_survey {c : Config} (h : c.HasTextPatterns) (root : FileTree) (cwd : Path)
    (paths : List Path) : surveyFault? (survey root cwd c paths) = none := by
  refine List.findSome?_eq_none_iff.mpr fun item hitem => ?_
  obtain ⟨file, -, rfl⟩ := List.mem_map.mp hitem
  obtain ⟨s, hs⟩ := exists_selection h (baseFor root cwd file paths) file
  rw [hs]

theorem nodup_includedFiles (seen : List (Path × Selection)) : (includedFiles seen).Nodup :=
  (List.mergeSort_perm _ _).nodup_iff.mpr (Scope.nodup_eraseDups _)

theorem scan_eq_ok {c : Config} (h : c.HasTextPatterns) (root : FileTree) (cwd : Path) (paths : List Path) :
    scan root cwd c paths = .ok (includedFiles (decided (survey root cwd c paths))) := by
  rw [scan, surveyFault?_survey h]

/-- **A scan gives a list of files without repetitions,** unless there is an obstacle. -/
theorem exists_scanWithin {c : Config} (h : c.HasTextPatterns) (limit : Option Nat) (root : FileTree)
    (cwd : Path) (paths : List Path) :
    (∃ cause, scanWithin limit root cwd c paths = .error (.obstacle cause)) ∨
      ∃ files, scanWithin limit root cwd c paths = .ok files ∧ files.Nodup := by
  rw [scanWithin]
  cases paths.findSome? (obstacle? limit root cwd) with
  | some cause => exact Or.inl ⟨cause, rfl⟩
  | none =>
    rw [scan_eq_ok h]
    exact Or.inr ⟨_, rfl, nodup_includedFiles _⟩

end PatchLint
