import PatchLint.Proofs.Files.ScanResult

/-!
# The order of the paths that are scanned

A source that several paths reach is decided about once, relative to the base that the first of them gives it. So
the order of the paths matters for the sources about which two of them disagree (`DisagreeOn`), and for no others.

* `findSome?_eq_of_perm` — the first answer is the same if different answers keep their order
* `selection_fault` — a decision that cannot be made cannot be made for one reason
* `scan_perm` — which changes of the order leave a scan as it is, and which files any change leaves alone. What is
  in the way of a scan is in its way in any order.
* `isUnder_of_disagree` — paths that disagree lie one below the other
-/

namespace PatchLint

open FileTree

/-! ## First answers -/

theorem idxOf_lt_of_first {α : Type} [DecidableEq α] {front : List α} {a b : α} (ha : a ∉ front)
    (hb : b ∉ front) (hne : b ≠ a) (rest : List α) : (front ++ a :: rest).idxOf a < (front ++ a :: rest).idxOf b := by
  rw [List.idxOf_append_of_notMem ha, List.idxOf_append_of_notMem hb, List.idxOf_cons_self,
    List.idxOf_cons_ne _ hne.symm]
  omega

/-- **The first answer is the same after a change of the order** in which those that give different answers keep
their order. -/
theorem findSome?_eq_of_perm {α β : Type} [DecidableEq α] {f : α → Option β} {l l' : List α}
    (hperm : l.Perm l')
    (h : ∀ a ∈ l, ∀ b ∈ l, ∀ x y, f a = some x → f b = some y → x ≠ y →
      (l.idxOf a < l.idxOf b ↔ l'.idxOf a < l'.idxOf b)) :
    l.findSome? f = l'.findSome? f := by
  cases hfirst : l.findSome? f with
  | none =>
    rw [List.findSome?_eq_none_iff] at hfirst
    exact (List.findSome?_eq_none_iff.mpr fun a ha => hfirst a (hperm.mem_iff.mpr ha)).symm
  | some x =>
    obtain ⟨front, a, rest, rfl, ha, hfront⟩ := List.findSome?_eq_some_iff.mp hfirst
    have hmem : a ∈ front ++ a :: rest := List.mem_append_right _ List.mem_cons_self
    cases hfirst' : l'.findSome? f with
    | none =>
      have hno := List.findSome?_eq_none_iff.mp hfirst' a (hperm.mem_iff.mp hmem)
      rw [ha] at hno
      cases hno
    | some y =>
      obtain ⟨front', b, rest', rfl, hb, hfront'⟩ := List.findSome?_eq_some_iff.mp hfirst'
      have hmem' : b ∈ front' ++ b :: rest' := List.mem_append_right _ List.mem_cons_self
      by_contra hxy
      have hne : x ≠ y := fun heq => hxy (congrArg some heq)
      have hab : b ≠ a := by
        rintro rfl
        exact hne (Option.some.inj (ha.symm.trans hb))
      have habsent (c : α) (z : β) (hc : f c = some z) : c ∉ front ∧ c ∉ front' := by
        refine ⟨fun hmem => ?_, fun hmem => ?_⟩
        · rw [hfront c hmem] at hc
          cases hc
        · rw [hfront' c hmem] at hc
          cases hc
      -- each of the two stands before the other one in the list that it comes first in
      have hbefore := idxOf_lt_of_first (habsent a x ha).1 (habsent b y hb).1 hab rest
      have hbefore' := idxOf_lt_of_first (habsent b y hb).2 (habsent a x ha).2 hab.symm rest'
      have hkept := (h a hmem b (hperm.mem_iff.mpr hmem') x y ha hb hne).mp hbefore
      omega

/-! ## Decisions that cannot be made -/

/-- Why a value cannot serve as a pattern, if it cannot. -/
def Value.patternFault? (v : Value) : Option PatternFault :=
  match v.globMatch [] with
  | .error e => some e
  | .ok _ => none

theorem Value.patternFault?_of_error {v : Value} {path : Text} {e : PatternFault}
    (h : v.globMatch path = .error e) : v.patternFault? = some e := by
  cases v <;> simp_all [Value.globMatch, Value.patternFault?]

theorem Value.patternFault?_of_ok {v : Value} {path : Text} {found : Bool}
    (h : v.globMatch path = .ok found) : v.patternFault? = none := by
  cases v <;> simp_all [Value.globMatch, Value.patternFault?]

/-- The patterns are gone through until one matches or cannot be used, so the first that cannot be used is the only
one that counts. -/
theorem findSome?_patternFault_of_anyMatch {path : Text} {patterns : List Value} :
    (∀ e, anyMatch path patterns = .error e → patterns.findSome? Value.patternFault? = some e) ∧
      (anyMatch path patterns = .ok false → patterns.findSome? Value.patternFault? = none) := by
  induction patterns with
  | nil => simp [anyMatch]
  | cons p patterns ih =>
    rw [anyMatch, List.findSome?_cons]
    cases hp : p.globMatch path with
    | error e => simp [Value.patternFault?_of_error hp]
    | ok found =>
      rw [Value.patternFault?_of_ok hp]
      cases found with
      | true => simp
      | false => exact ih

/-- **A decision that cannot be made cannot be made for one reason,** whatever the file and its base. -/
theorem selection_fault {c : Config} {base file : Path} {e : PatternFault}
    (h : selection c base file = .error e) :
    (c.excluded ++ c.included).findSome? Value.patternFault? = some e := by
  rw [List.findSome?_append]
  rw [selection] at h
  split at h
  · next e' hexcluded =>
    cases h
    rw [findSome?_patternFault_of_anyMatch.1 _ hexcluded, Option.some_or]
  · cases h
  · next hexcluded =>
    rw [findSome?_patternFault_of_anyMatch.2 hexcluded, Option.none_or]
    split at h
    · next e' hincluded =>
      cases h
      exact findSome?_patternFault_of_anyMatch.1 _ hincluded
    · cases h
    · cases h

/-! ## Scans of the same files -/

section SameFiles

variable {root : FileTree} {cwd : Path} {c : Config} {paths paths' : List Path}

theorem exists_of_surveyFault? {seen : List (Path × Except PatternFault Selection)} {e : PatternFault}
    (h : surveyFault? seen = some e) : ∃ file, (file, .error e) ∈ seen := by
  obtain ⟨⟨file, decision⟩, hmem, hfault⟩ := List.exists_of_findSome?_eq_some h
  cases decision with
  | ok s => cases hfault
  | error e' =>
    cases hfault
    exact ⟨file, hmem⟩

theorem surveyFault?_ne_none {seen : List (Path × Except PatternFault Selection)} {file : Path}
    {e : PatternFault} (h : (file, .error e) ∈ seen) : surveyFault? seen ≠ none := by
  intro hnone
  cases List.findSome?_eq_none_iff.mp hnone _ h

theorem surveyFault?_congr
    (h : ∀ item, item ∈ survey root cwd c paths ↔ item ∈ survey root cwd c paths') :
    surveyFault? (survey root cwd c paths) = surveyFault? (survey root cwd c paths') := by
  cases hfault : surveyFault? (survey root cwd c paths) with
  | none =>
    cases hfault' : surveyFault? (survey root cwd c paths') with
    | none => rfl
    | some e =>
      obtain ⟨file, hmem⟩ := exists_of_surveyFault? hfault'
      exact absurd hfault (surveyFault?_ne_none ((h _).mpr hmem))
  | some e =>
    obtain ⟨file, hmem⟩ := exists_of_surveyFault? hfault
    cases hfault' : surveyFault? (survey root cwd c paths') with
    | none => exact absurd hfault' (surveyFault?_ne_none ((h _).mp hmem))
    | some e' =>
      obtain ⟨file', hmem'⟩ := exists_of_surveyFault? hfault'
      have he := selection_fault (mem_survey_iff.mp hmem).2
      have he' := selection_fault (mem_survey_iff.mp hmem').2
      rw [← he, ← he']

/-- **Scans that look at the same decisions give the same.** -/
theorem scan_congr (hroot : root.wellNamed = true)
    (h : ∀ item, item ∈ survey root cwd c paths ↔ item ∈ survey root cwd c paths') :
    scan root cwd c paths = scan root cwd c paths' := by
  rw [scan, scan, surveyFault?_congr h]
  cases hfault : surveyFault? (survey root cwd c paths') with
  | some e => rfl
  | none =>
    have hfault' := (surveyFault?_congr h).trans hfault
    refine congrArg Except.ok (includedFiles_congr (fun file => anchor_of_mem_scanned hroot hfault') fun file => ?_)
    rw [mem_decided_iff hfault', mem_decided_iff hfault, h]

end SameFiles

/-! ## Disagreement -/

/-- Whether two paths disagree about a file: both give it a base, but not the same. -/
def DisagreeOn (root : FileTree) (cwd file p q : Path) : Prop :=
  ∃ base base', baseGivenBy? root cwd file p = some base ∧ baseGivenBy? root cwd file q = some base' ∧
    base ≠ base'

/-- Whether two paths disagree about some source. -/
def Disagree (root : FileTree) (cwd p q : Path) : Prop := ∃ file, IsSource root file ∧ DisagreeOn root cwd file p q

theorem isUnder_of_baseGivenBy? {root : FileTree} {cwd file p base : Path}
    (h : baseGivenBy? root cwd file p = some base) : file.isUnder (Path.resolve cwd p) = true := by
  rw [baseGivenBy?] at h
  split at h
  · next hsame =>
    rw [hsame]
    exact Path.isUnder_iff.mpr ⟨[], by rw [List.append_nil]⟩
  · split at h
    · next hunder => exact (Bool.and_eq_true_iff.mp hunder).2
    · cases h

/-- **Paths that disagree lie one below the other.** -/
theorem isUnder_of_disagree {root : FileTree} {cwd p q : Path} (h : Disagree root cwd p q) :
    (Path.resolve cwd p).isUnder (Path.resolve cwd q) = true ∨
      (Path.resolve cwd q).isUnder (Path.resolve cwd p) = true := by
  obtain ⟨file, -, base, base', hp, hq, -⟩ := h
  obtain ⟨names, hnames⟩ := Path.isUnder_iff.mp (isUnder_of_baseGivenBy? hp)
  obtain ⟨names', hnames'⟩ := Path.isUnder_iff.mp (isUnder_of_baseGivenBy? hq)
  have hfront : (Path.resolve cwd p).parts <+: file.parts := ⟨names, by rw [hnames]⟩
  have hfront' : (Path.resolve cwd q).parts <+: file.parts := ⟨names', by rw [hnames']⟩
  rcases List.prefix_or_prefix_of_prefix hfront hfront' with ⟨rest, hrest⟩ | ⟨rest, hrest⟩
  · exact Or.inr (Path.isUnder_iff.mpr ⟨rest, by rw [hrest]; rfl⟩)
  · exact Or.inl (Path.isUnder_iff.mpr ⟨rest, by rw [hrest]; rfl⟩)

/-! ## Changes of the order -/

section Order

variable {root : FileTree} {cwd : Path} {c : Config} {paths paths' : List Path}

/-- Paths that do not disagree about a file give it the same base in any order. -/
theorem findSome?_base_eq (hperm : paths.Perm paths') {file : Path}
    (h : ∀ p ∈ paths, ∀ q ∈ paths, DisagreeOn root cwd file p q →
      (paths.idxOf p < paths.idxOf q ↔ paths'.idxOf p < paths'.idxOf q)) :
    paths.findSome? (baseGivenBy? root cwd file) = paths'.findSome? (baseGivenBy? root cwd file) := by
  refine findSome?_eq_of_perm hperm fun p hp q hq base base' hbase hbase' hne => ?_
  exact h p hp q hq ⟨base, base', hbase, hbase', hne⟩

theorem mem_survey_congr (hroot : root.wellNamed = true) (hperm : paths.Perm paths')
    (hbase : ∀ file, IsSource root file →
      paths.findSome? (baseGivenBy? root cwd file) = paths'.findSome? (baseGivenBy? root cwd file))
    (item : Path × Except PatternFault Selection) :
    item ∈ survey root cwd c paths ↔ item ∈ survey root cwd c paths' := by
  obtain ⟨file, decision⟩ := item
  have hreached : (∃ p ∈ paths, file ∈ sourcesUnder root (Path.resolve cwd p)) ↔
      ∃ p ∈ paths', file ∈ sourcesUnder root (Path.resolve cwd p) := by
    simp only [hperm.mem_iff]
  rw [mem_survey_iff, mem_survey_iff, ← hreached]
  refine and_congr_right fun hfile => ?_
  obtain ⟨p, -, hp⟩ := hfile
  have hsource := ((mem_sourcesUnder_resolve_iff hroot).mp hp).1
  rw [baseFor_eq hsource.1, baseFor_eq hsource.1, hbase file hsource]

end Order

/-- **The order of the paths matters only where they disagree.** A scan gives the same, a list or a fault, for the
paths in any other order in which those that disagree about some source keep theirs. In whatever order the paths
are given, a file about which no two of them disagree is in the list or not just the same. And if there is an
obstacle in the way of a scan, there is one in the way of it in any order. There are no symbolic links in the
tree. -/
theorem scan_perm {root : FileTree} (hroot : root.wellNamed = true) {paths paths' : List Path}
    (hperm : paths.Perm paths') (cwd : Path) (c : Config) :
    ((∀ p ∈ paths, ∀ q ∈ paths, Disagree root cwd p q →
        (paths.idxOf p < paths.idxOf q ↔ paths'.idxOf p < paths'.idxOf q)) →
      scan root cwd c paths = scan root cwd c paths') ∧
    (c.HasTextPatterns → ∃ files files', scan root cwd c paths = .ok files ∧ scan root cwd c paths' = .ok files' ∧
      ∀ file, (∀ p ∈ paths, ∀ q ∈ paths, ¬DisagreeOn root cwd file p q) → (file ∈ files ↔ file ∈ files')) ∧
    ∀ limit, (∃ cause cause', scanWithin limit root cwd c paths = .error (.obstacle cause) ∧
        scanWithin limit root cwd c paths' = .error (.obstacle cause')) ∨
      (scanWithin limit root cwd c paths = (scan root cwd c paths).mapError .pattern ∧
        scanWithin limit root cwd c paths' = (scan root cwd c paths').mapError .pattern) := by
  refine ⟨?_, ?_, fun limit => ?_⟩
  · intro horder
    refine scan_congr hroot (mem_survey_congr hroot hperm fun file hsource => ?_)
    exact findSome?_base_eq hperm fun p hp q hq hdisagree => horder p hp q hq ⟨file, hsource, hdisagree⟩
  · intro hc
    refine ⟨_, _, scan_eq_ok hc root cwd paths, scan_eq_ok hc root cwd paths', fun file hagree => ?_⟩
    rw [mem_scanned_iff hroot (surveyFault?_survey hc root cwd paths),
      mem_scanned_iff hroot (surveyFault?_survey hc root cwd paths'),
      findSome?_base_eq hperm fun p hp q hq hdisagree => absurd hdisagree (hagree p hp q hq)]
    simp only [hperm.mem_iff]
  · rcases scanWithin_cases hroot limit cwd c paths with ⟨p, hp, cause, hcause, hfails⟩ | ⟨hfree, hscan⟩
    · rcases scanWithin_cases hroot limit cwd c paths' with ⟨-, -, cause', -, hfails'⟩ | ⟨hfree', -⟩
      · exact Or.inl ⟨cause, cause', hfails, hfails'⟩
      · exact absurd ⟨p, hperm.mem_iff.mp hp, cause, hcause⟩ hfree'
    · rcases scanWithin_cases hroot limit cwd c paths' with ⟨p, hp, cause, hcause, -⟩ | ⟨-, hscan'⟩
      · exact absurd ⟨p, hperm.mem_iff.mpr hp, cause, hcause⟩ hfree
      · exact Or.inr ⟨hscan, hscan'⟩

/-- Two directories side by side may be exchanged, in front of the directory that they lie in. A file that lies in
neither of them is scanned in any order. -/
theorem scan_perm_siblings :
    let tree : FileTree := .directory [("lib", .directory [("a.js", .file [])]),
      ("src", .directory [("b.js", .file [])]), ("c.js", .file [])]
    let paths : List Path := [⟨.relative, ["lib"]⟩, ⟨.relative, ["src"]⟩, ⟨.relative, []⟩]
    let paths' : List Path := [⟨.relative, ["src"]⟩, ⟨.relative, ["lib"]⟩, ⟨.relative, []⟩]
    tree.wellNamed = true ∧ paths.Perm paths' ∧ scan tree ⟨.root, []⟩ {} paths = scan tree ⟨.root, []⟩ {} paths' ∧
      ({} : Config).HasTextPatterns ∧
      ∃ files files', scan tree ⟨.root, []⟩ {} paths = .ok files ∧ scan tree ⟨.root, []⟩ {} paths' = .ok files' ∧
        (⟨.root, ["c.js"]⟩ ∈ files ↔ ⟨.root, ["c.js"]⟩ ∈ files') := by
  intro tree paths paths'
  have hroot : tree.wellNamed = true := by decide
  have hperm : paths.Perm paths' := .swap _ _ _
  obtain ⟨hsame, hfiles, -⟩ := scan_perm hroot hperm ⟨.root, []⟩ {}
  have hkept : ∀ p ∈ paths, ∀ q ∈ paths,
      ((Path.resolve ⟨.root, []⟩ p).isUnder (Path.resolve ⟨.root, []⟩ q) = true ∨
        (Path.resolve ⟨.root, []⟩ q).isUnder (Path.resolve ⟨.root, []⟩ p) = true) →
      (paths.idxOf p < paths.idxOf q ↔ paths'.idxOf p < paths'.idxOf q) := by
    decide
  have hgiven : ∀ p ∈ paths, ∀ q ∈ paths, (baseGivenBy? tree ⟨.root, []⟩ ⟨.root, ["c.js"]⟩ p).isSome = true →
      (baseGivenBy? tree ⟨.root, []⟩ ⟨.root, ["c.js"]⟩ q).isSome = true → p = q := by
    decide
  refine ⟨hroot, hperm, hsame fun p hp q hq hdisagree => hkept p hp q hq (isUnder_of_disagree hdisagree),
    Config.hasTextPatterns_default, ?_⟩
  obtain ⟨files, files', hscan, hscan', hmem⟩ := hfiles Config.hasTextPatterns_default
  refine ⟨files, files', hscan, hscan', hmem _ fun p hp q hq hdisagree => ?_⟩
  obtain ⟨base, base', hbase, hbase', hne⟩ := hdisagree
  obtain rfl := hgiven p hp q hq (by rw [hbase]; rfl) (by rw [hbase']; rfl)
  exact hne (Option.some.inj (hbase.symm.trans hbase'))

/-- A directory may not be exchanged with one that it lies in: what is built is excluded only as seen from the inner
one. -/
theorem not_scan_perm_nested :
    ¬∀ (root : FileTree) (cwd : Path) (c : Config) (paths paths' : List Path), root.wellNamed = true →
      c.HasTextPatterns → paths.Perm paths' → scan root cwd c paths = scan root cwd c paths' := by
  intro h
  have hsame := h projectTree ⟨.root, ["app"]⟩ {} [⟨.relative, []⟩, ⟨.relative, ["src"]⟩]
    [⟨.relative, ["src"]⟩, ⟨.relative, []⟩] (by decide) Config.hasTextPatterns_default (.swap _ _ _)
  rw [scan_eq_ok Config.hasTextPatterns_default, scan_eq_ok Config.hasTextPatterns_default] at hsame
  have hmem := congrArg (⟨.root, ["app", "src", "dist", "a.js"]⟩ ∈ ·) (Except.ok.inj hsame)
  simp only [mem_includedFiles] at hmem
  have houter : (⟨.root, ["app", "src", "dist", "a.js"]⟩, Selection.included) ∈
      decided (survey projectTree ⟨.root, ["app"]⟩ {} [⟨.relative, []⟩, ⟨.relative, ["src"]⟩]) := by
    decide +kernel
  exact absurd (hmem.mp houter) (by decide +kernel)

end PatchLint
