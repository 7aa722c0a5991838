import PatchLint.Proofs.Files.Obstacles
import PatchLint.Proofs.Files.Scanning
import PatchLint.Proofs.Fix.KeptRun
import PatchLint.Proofs.Run.Reading
import PatchLint.Run.Lint

/-!
# Every linted file is accounted for

Linting comes to an end, whatever the files hold, unless the scan does not, and its report is put together
file by file (`lintPaths_accounts`): a file that cannot be read, decoded or parsed gives one syntax error, and
every other file gives the findings in its tree.

What is reported about a file is told by `Reported`, without the run. Adding a file to a collection adds
just this (`FileLint.addTo_eq`), and so does adding many (`lintFiles_eq`): none of them is without both a tree
and a syntax error (`exists_fault_lintFile`).
-/

namespace PatchLint

/-! ## One file -/

/-- What is reported about a file. -/
structure FileReport where
  syntaxErrors : List FileSyntaxError
  diagnostics : List FileDiagnostic

/-- The syntax error for a file that has no tree. -/
def syntaxErrorIn (file : Path) (fault : SyntaxFault) : FileSyntaxError where
  file := file.toString
  place := { line := fault.line, column := fault.column }
  message := fault.message
  sourceLine := fault.sourceLine

/-- What has to be reported about a file: one error if it has no tree, and otherwise the findings in its
tree, in their order and each at its place. -/
inductive Reported (parser : Parser) (rules : RuleConfig) (root : FileTree) (file : Path) :
    FileReport → Prop where
  | failed {fault : SyntaxFault} (h : SourceFault parser root file fault) :
      Reported parser rules root file ⟨[syntaxErrorIn file fault], []⟩
  | analyzed {source : Text} {tree : Node} (h : SourceTree parser root file source tree) :
      Reported parser rules root file
        ⟨[], (analyzeTree rules (Utf8.encode source) tree).map
          (locateIn file.toString (Utf8.encode source))⟩

/-- What a linted file adds to a collection. -/
def FileLint.report (f : FileLint) : FileReport :=
  match f.reading.tree with
  | some _ => ⟨[], f.findings.map (locateIn f.reading.file.toString f.reading.bytes)⟩
  | none => ⟨f.reading.fault.toList.map (syntaxErrorIn f.reading.file), []⟩

theorem FileLint.addTo_eq {f : FileLint}
    (h : f.reading.tree = none → ∃ fault, f.reading.fault = some fault) (c : Collection) :
    f.addTo c
      = .ok ⟨c.diagnostics ++ f.report.diagnostics, c.syntaxErrors ++ f.report.syntaxErrors⟩ := by
  unfold FileLint.addTo FileLint.report
  cases htree : f.reading.tree with
  | some tree => simp [Collection.addAll]
  | none =>
    obtain ⟨fault, hfault⟩ := h htree
    simp [hfault, Collection.addSyntaxError, syntaxErrorIn]

variable {parser : Parser} {c : Config} {root : FileTree}

/-- A file that has been linted has a tree or a syntax error. -/
theorem exists_fault_lintFile {file : Path} (h : (lintFile parser c root file).reading.tree = none) :
    ∃ fault, (lintFile parser c root file).reading.fault = some fault :=
  exists_fault_of_tree_eq_none h

/-- **A file adds what has to be reported about it.** -/
theorem reported_lintFile (parser : Parser) (c : Config) (root : FileTree) (file : Path) :
    Reported parser c.rules root file (lintFile parser c root file).report := by
  unfold lintFile FileLint.report SourceReading.findings
  dsimp only
  rw [file_readSource]
  cases htree : (readSource parser root ⟨.root, []⟩ file none).tree with
  | some tree => exact .analyzed (tree_readSource_eq_some_iff.mp htree)
  | none =>
    obtain ⟨fault, hfault⟩ := exists_fault_of_tree_eq_none htree
    rw [hfault]
    exact .failed (fault_readSource_eq_some_iff.mp hfault)

/-- A file adds a syntax error exactly if it has no tree. -/
theorem syntaxErrors_ne_nil_iff {file : Path} :
    (lintFile parser c root file).report.syntaxErrors ≠ [] ↔
      ∃ fault, SourceFault parser root file fault := by
  unfold lintFile FileLint.report
  dsimp only
  cases htree : (readSource parser root ⟨.root, []⟩ file none).tree with
  | some tree =>
    have hsource := tree_readSource_eq_some_iff.mp htree
    simp only [ne_eq, not_true_eq_false, false_iff]
    rintro ⟨fault, hfault⟩
    exact hfault.not_sourceTree hsource
  | none =>
    obtain ⟨fault, hfault⟩ := exists_fault_of_tree_eq_none htree
    rw [hfault]
    exact iff_of_true (List.cons_ne_nil _ _) ⟨fault, fault_readSource_eq_some_iff.mp hfault⟩

/-! ## Many files -/

theorem foldlM_addTo {files : List FileLint}
    (h : ∀ f ∈ files, f.reading.tree = none → ∃ fault, f.reading.fault = some fault) (c : Collection) :
    files.foldlM (fun c f => f.addTo c) c
      = .ok ⟨c.diagnostics ++ files.flatMap (·.report.diagnostics),
          c.syntaxErrors ++ files.flatMap (·.report.syntaxErrors)⟩ := by
  induction files generalizing c with
  | nil => simp [pure, Except.pure]
  | cons f files ih =>
    obtain ⟨hf, hrest⟩ := List.forall_mem_cons.mp h
    rw [List.foldlM_cons, FileLint.addTo_eq hf]
    exact (ih hrest _).trans (by simp)

/-- **The collection of a run** is put together file by file. -/
theorem lintFiles_eq (parser : Parser) (c : Config) (root : FileTree) (files : List Path) :
    lintFiles parser c root files
      = .ok ⟨files.map (lintFile parser c root),
          files.flatMap fun file => (lintFile parser c root file).report.diagnostics,
          files.flatMap fun file => (lintFile parser c root file).report.syntaxErrors⟩ := by
  unfold lintFiles
  dsimp only
  rw [foldlM_addTo, Except.map]
  · simp [List.flatMap_map]
  · intro f hf
    obtain ⟨file, -, rfl⟩ := List.mem_map.mp hf
    exact exists_fault_lintFile

theorem Collection.hasErrors_iff (c : Collection) :
    c.hasErrors = true ↔ c.syntaxErrors ≠ [] ∨ ∃ d ∈ c.diagnostics, d.diagnostic.severity = .error := by
  simp [Collection.hasErrors, Collection.count, List.countP_pos_iff]

/-- **The exit code tells whether there is an error.** -/
theorem exitCode_lintFiles {files : List Path} {result : LintResult}
    (h : lintFiles parser c root files = .ok result) :
    result.exitCode = 1 ↔
      (∃ file ∈ files, ∃ fault, SourceFault parser root file fault) ∨
      ∃ d ∈ result.collection.diagnostics, d.diagnostic.severity = .error := by
  have hcode : result.exitCode = 1 ↔ result.collection.hasErrors = true := by
    rw [LintResult.exitCode]
    split <;> simp [*]
  have herrors : result.collection.syntaxErrors ≠ [] ↔
      ∃ file ∈ files, ∃ fault, SourceFault parser root file fault := by
    obtain rfl := Except.ok.inj ((lintFiles_eq parser c root files).symm.trans h)
    simp only [← syntaxErrors_ne_nil_iff (c := c), ne_eq, List.flatMap_eq_nil_iff]
    simp
  rw [hcode, Collection.hasErrors_iff, herrors]

/-! ## Runs -/

/-- **Every file that is looked at is accounted for.** If the scan cannot go on, linting ends with the same
obstacle. If it can, linting comes to an end, looks at each file of the scan once, and reports about each of
them what has to be reported, in the order of the scan; a file without a tree always has a syntax error to
report. The exit code is one exactly if a file has no tree or a finding is an error. There are no symbolic
links in the tree. -/
theorem lintPaths_accounts (limit : Option Nat) (parser : Parser) (c : Config) (root : FileTree)
    (cwd : Path) (paths : List Path) (h : c.HasTextPatterns) :
    (∃ cause, scanWithin limit root cwd c paths = .error (.obstacle cause) ∧
        lintPaths limit parser c root cwd paths = .error (.scan (.obstacle cause))) ∨
      ∃ files result, scanWithin limit root cwd c paths = .ok files ∧ files.Nodup ∧
        lintPaths limit parser c root cwd paths = .ok result ∧
        result.filesChecked = files.length ∧
        (∃ report : Path → FileReport,
          (∀ file ∈ files, Reported parser c.rules root file (report file)) ∧
          result.collection.syntaxErrors = files.flatMap (fun file => (report file).syntaxErrors) ∧
          result.collection.diagnostics = files.flatMap (fun file => (report file).diagnostics)) ∧
        (result.exitCode = 1 ↔
          (∃ file ∈ files, ∃ fault, SourceFault parser root file fault) ∨
          ∃ d ∈ result.collection.diagnostics, d.diagnostic.severity = .error) := by
  unfold lintPaths
  rcases exists_scanWithin h limit root cwd paths with ⟨cause, hscan⟩ | ⟨files, hscan, hnodup⟩
  · exact Or.inl ⟨cause, hscan, by rw [hscan]⟩
  have hlint := lintFiles_eq parser c root files
  refine Or.inr ⟨files, _, hscan, hnodup, (by rw [hscan]; exact hlint), ?_, ?_,
    exitCode_lintFiles hlint⟩
  · rw [LintResult.filesChecked, List.length_map]
  · exact ⟨fun file => (lintFile parser c root file).report,
      fun file _ => reported_lintFile parser c root file, rfl, rfl⟩

/-- A project with an unused import, a file that is no text, one that no grammar accepts, and one that may
not be read. -/
def mixedProject : FileTree :=
  .directory [("b.js", .file [0xFF]), ("c.ts", .file (Utf8.encode "\x7d".toList)),
    ("a.js", .file (Utf8.encode "import a from 'a';\n".toList)), ("d.js", .locked false)]

/-- All four files are counted, and the exit code tells of the one that may not be read. -/
theorem lintPaths_accounts_mixed :
    let parser := shortParser [("import a from 'a';\n", [shortImport 0])]
    ({} : Config).HasTextPatterns ∧
      ∃ result, lintPaths (some 10) parser {} mixedProject ⟨.root, []⟩ [⟨.relative, []⟩] = .ok result ∧
        result.filesChecked = 4 ∧ result.exitCode = 1 := by
  intro parser
  have hpatterns := Config.hasTextPatterns_default
  have hfree : [(⟨.relative, []⟩ : Path)].findSome? (obstacle? (some 10) mixedProject ⟨.root, []⟩) = none := by
    decide +kernel
  have hscan : scanWithin (some 10) mixedProject ⟨.root, []⟩ {} [⟨.relative, []⟩]
      = .ok (includedFiles (decided (survey mixedProject ⟨.root, []⟩ {} [⟨.relative, []⟩]))) := by
    rw [scanWithin, hfree, scan_eq_ok hpatterns]
    rfl
  obtain ⟨cause, hfails, -⟩ | ⟨files, result, hfiles, -, hlint, hchecked, -, hcode⟩ :=
    lintPaths_accounts (some 10) parser {} mixedProject ⟨.root, []⟩ [⟨.relative, []⟩] hpatterns
  · rw [hscan] at hfails
    cases hfails
  have hseen : (((decided (survey mixedProject ⟨.root, []⟩ {} [⟨.relative, []⟩])).filter
        (·.2 == .included)).map (·.1)).eraseDups
      = [⟨.root, ["b.js"]⟩, ⟨.root, ["c.ts"]⟩, ⟨.root, ["a.js"]⟩, ⟨.root, ["d.js"]⟩] := by decide +kernel
  rw [hscan, includedFiles, hseen] at hfiles
  -- the number of files and their names are known without sorting them
  obtain rfl := (Except.ok.inj hfiles).symm
  rw [List.length_mergeSort] at hchecked
  have hmem : (⟨.root, ["d.js"]⟩ : Path) ∈ [(⟨.root, ["b.js"]⟩ : Path), ⟨.root, ["c.ts"]⟩,
      ⟨.root, ["a.js"]⟩, ⟨.root, ["d.js"]⟩].mergeSort Path.le := List.mem_mergeSort.mpr (by simp)
  have hread : mixedProject.readBytes ⟨.root, ["d.js"]⟩ = .error .denied := by rfl
  exact ⟨hpatterns, result, hlint, hchecked, hcode.mpr (Or.inl ⟨_, hmem, _, .unreadable hread⟩)⟩

/-- Linting does not come to an end if another path has a name that is too long, nor beside a directory that may
not be read. -/
theorem not_lintPaths_accounts_obstructed :
    let source : String × FileTree := ("x.js", .file [])
    let linted (entries : List (String × FileTree)) (paths : List Path) :=
      lintPaths none (shortParser []) {} (.directory (source :: entries)) ⟨.root, []⟩
        (⟨.relative, []⟩ :: paths)
    linted [] [⟨.relative, [longName]⟩] = .error (.scan (.obstacle (.inaccessible .nameTooLong))) ∧
      linted [("private", .locked true)] [] = .error (.scan (.obstacle (.inaccessible .denied))) ∧
      ¬∀ (limit : Option Nat) (parser : Parser) (c : Config) (root : FileTree) (cwd : Path)
          (paths : List Path), c.HasTextPatterns →
        ∃ result, lintPaths limit parser c root cwd paths = .ok result := by
  intro source linted
  have hfails {entries : List (String × FileTree)} {paths : List Path} {fault : ScanFault}
      (hscan : scanWithin none (.directory (source :: entries)) ⟨.root, []⟩ {} (⟨.relative, []⟩ :: paths)
        = .error fault) : linted entries paths = .error (.scan fault) := by
    simp only [linted, lintPaths, hscan]
  have hlocked : linted [("private", .locked true)] [] = .error (.scan (.obstacle (.inaccessible .denied))) :=
    hfails (by decide +kernel)
  refine ⟨hfails scanWithin_longName, hlocked, fun h => ?_⟩
  obtain ⟨result, hresult⟩ := h none (shortParser []) {} (.directory [source, ("private", .locked true)])
    ⟨.root, []⟩ [⟨.relative, []⟩] Config.hasTextPatterns_default
  cases hresult.symm.trans hlocked

end PatchLint
