import PatchLint.Proofs.Files.Scanning
import PatchLint.Proofs.Run.Agreement
import PatchLint.Proofs.Run.Reading

/-!
# What interrupts the work on files

Fixing looks at more than the sources: before a generator is asked, the description of the project is
read, and afterwards the diff that it has answered with. A source that cannot be read, decoded or parsed is
passed over, and a description that cannot be read counts as absent. A description that can be read and is no
text breaks the whole run off, and so does a diff in which a number is too long.

* `repoContext_cases` — when the project of a directory is told and when it cannot be
* `fixFile_cases` — a file is worked on as told by `WorkedOn`, or breaks the run off as told by `BreaksOff`
* `fixFiles_cases` — so is a list of files (`Works`), up to the first that breaks the run off
* `fixPaths_interrupted` — and so are the files of a scan that gives some
-/

namespace PatchLint

variable {σ : Type} {parser : Parser} {c : Config} {root : FileTree}

/-! ## Projects -/

/-- The project of a directory: the nearest directory at or above it that has a project file. -/
def nearestProject? (root : FileTree) (start : Path) : Option Path :=
  start.selfAndParents.find? fun dir =>
    root.isFile (dir.child "package.json") || root.isFile (dir.child "tsconfig.json")

/-- What is told about the project of a directory. A package description without a text counts as
absent, and of the other file only its presence counts. -/
def projectContext (root : FileTree) (start : Path) : RepoContext :=
  match nearestProject? root start with
  | none => {}
  | some dir =>
    ⟨(root.readText (dir.child "package.json")).toOption, root.isFile (dir.child "tsconfig.json")⟩

/-- Whether the package description of the project of a directory can be read and is no text. -/
def PackageFault (root : FileTree) (start : Path) (error : Utf8.DecodeError) : Prop :=
  ∃ dir bytes, nearestProject? root start = some dir ∧
    root.readBytes (dir.child "package.json") = .ok bytes ∧ Utf8.decode bytes = .error error

theorem packageFault_iff {start : Path} {error : Utf8.DecodeError} :
    PackageFault root start error ↔ ∃ dir, nearestProject? root start = some dir ∧
      root.readText (dir.child "package.json") = .error (.undecodable error) := by
  simp only [PackageFault, FileTree.readText_eq_undecodable_iff, exists_and_left]

/-- **The project of a directory is told,** unless its package description is no text. -/
theorem repoContext_cases (root : FileTree) (start : Path) :
    ((∀ error, ¬PackageFault root start error) ∧
        repoContext root start = .ok (projectContext root start)) ∨
      ∃ error, PackageFault root start error ∧ repoContext root start = .error error := by
  simp only [packageFault_iff]
  rw [repoContext, ← nearestProject?, projectContext]
  dsimp only
  cases nearestProject? root start with
  | none => exact Or.inl ⟨by simp, rfl⟩
  | some dir =>
    dsimp only
    cases htext : root.readText (dir.child "package.json") with
    | ok t => exact Or.inl ⟨by simp [htext], rfl⟩
    | error cause =>
      cases cause with
      | unreadable fault => exact Or.inl ⟨by simp [htext], rfl⟩
      | undecodable error => exact Or.inr ⟨error, ⟨dir, rfl, htext⟩, rfl⟩

/-! ## One file -/

/-- A file that has been read on its own. -/
def readingOf (parser : Parser) (root : FileTree) (file : Path) : SourceReading :=
  readSource parser root ⟨.root, []⟩ file none

/-- What a generator is asked about a file. -/
def requestAbout (parser : Parser) (c : Config) (root : FileTree) (file : Path) : FixRequest :=
  fixRequest c.rules (readingOf parser root file) (projectContext root file.parent)

/-- Whether the work on a file breaks the run off if the generator is in a given state. A generator is to be
asked about its source, and either the package description of its project is no text, or the generator
answers with a diff in which a number is too long. -/
inductive BreaksOff (parser : Parser) (c : Config) (root : FileTree) :
    FixMode σ → σ → Path → FixBreak → Prop where
  | package {generator : Option (Generator σ)} {state : σ} {file : Path} {source : Text} {tree : Node}
      {error : Utf8.DecodeError} (hsource : SourceTree parser root file source tree)
      (hpackage : PackageFault root file.parent error) :
      BreaksOff parser c root (.generated generator) state file (.package error)
  | illegible {ask : Generator σ} {state : σ} {file : Path} {source : Text} {tree : Node}
      {broken : IllegibleFix} (hsource : SourceTree parser root file source tree)
      (hpackage : ∀ error, ¬PackageFault root file.parent error)
      (hissues : (requestAbout parser c root file).diagnostics ≠ [])
      (hanswer : (ask (requestAbout parser c root file) state).1 = .ok broken.fix)
      (hfault : overlongNumber? broken.fix.diff = some broken.fault) :
      BreaksOff parser c root (.generated (some ask)) state file (.illegible broken)

/-- How a file is worked on, and how the state of the generator changes with it. -/
inductive WorkedOn (parser : Parser) (c : Config) (root : FileTree) :
    FixMode σ → σ → Path → FileFix → σ → Prop where
  /-- A file without a tree is passed over. -/
  | skipped {mode : FixMode σ} {state : σ} {file : Path} {fault : SyntaxFault}
      (h : SourceFault parser root file fault) :
      WorkedOn parser c root mode state file ⟨readingOf parser root file, .skipped⟩ state
  | ruleBased {state : σ} {file : Path} {source : Text} {tree : Node}
      (h : SourceTree parser root file source tree) :
      WorkedOn parser c root .ruleBased state file
        ⟨readingOf parser root file, .ruleBased (fixRun parser c.rules (sourceLanguage file) source)⟩ state
  | generated {generator : Option (Generator σ)} {state next : σ} {file : Path} {source : Text}
      {tree : Node} {report : FixReport} (h : SourceTree parser root file source tree)
      (hpackage : ∀ error, ¬PackageFault root file.parent error)
      (hreport : validatedFix parser c.rules generator (requestAbout parser c root file) state
        = (.ok report, next)) :
      WorkedOn parser c root (.generated generator) state file
        ⟨readingOf parser root file, .generated (requestAbout parser c root file) report⟩ next

/-- The work on a file with a tree. -/
theorem workedOn_or_breaksOff {generator : Option (Generator σ)} {file : Path} {source : Text}
    {tree : Node} (htree : (readingOf parser root file).tree = some tree)
    (hsource : SourceTree parser root file source tree)
    (hpackage : ∀ error, ¬PackageFault root file.parent error)
    (hcontext : repoContext root file.parent = .ok (projectContext root file.parent)) (state : σ) :
    (∃ f next, fixFile parser c root (.generated generator) (readingOf parser root file) state
        = (.ok f, next) ∧ WorkedOn parser c root (.generated generator) state file f next ∧
        ∀ cause, ¬BreaksOff parser c root (.generated generator) state file cause) ∨
      ∃ cause next, fixFile parser c root (.generated generator) (readingOf parser root file) state
        = (.error cause, next) ∧ BreaksOff parser c root (.generated generator) state file cause := by
  have hfile : (readingOf parser root file).file = file := file_readSource
  obtain ⟨answer, next, hanswer⟩ : ∃ answer next, validatedFix parser c.rules generator
      (requestAbout parser c root file) state = (answer, next) := ⟨_, _, rfl⟩
  have hresult : (validatedFix parser c.rules generator (requestAbout parser c root file) state).1
      = answer := by rw [hanswer]
  have hcontext' : repoContext root (readingOf parser root file).file.parent
      = .ok (projectContext root file.parent) := by rw [hfile, hcontext]
  cases answer with
  | ok report =>
    refine Or.inl ⟨_, next, fixFile_generated htree hcontext' hanswer, .generated hsource hpackage hanswer, ?_⟩
    rintro cause (⟨-, hfault⟩ | ⟨-, -, hissues, hask, hfault⟩)
    · exact hpackage _ hfault
    · -- the same answer cannot both be judged and be impossible to read
      have hbroken : (validatedFix parser c.rules (some _) (requestAbout parser c root file) state).1
          = .error _ := validatedFix_eq_error_iff.mpr ⟨hissues, congrArg some hask, hfault⟩
      rw [hresult] at hbroken
      cases hbroken
  | error broken =>
    obtain ⟨hissues, hsome, hfault⟩ := validatedFix_eq_error_iff.mp hresult
    obtain ⟨ask, rfl, hask⟩ := Option.map_eq_some_iff.mp hsome
    exact Or.inr ⟨_, next, fixFile_illegible htree hcontext' hanswer,
      .illegible hsource hpackage hissues hask hfault⟩

/-- **A file is worked on as told, or breaks the run off.** -/
theorem fixFile_cases (parser : Parser) (c : Config) (root : FileTree) (mode : FixMode σ) (file : Path)
    (state : σ) :
    (∃ f next, fixFile parser c root mode (readingOf parser root file) state = (.ok f, next) ∧
        WorkedOn parser c root mode state file f next ∧
        ∀ cause, ¬BreaksOff parser c root mode state file cause) ∨
      ∃ cause next, fixFile parser c root mode (readingOf parser root file) state
        = (.error cause, next) ∧ BreaksOff parser c root mode state file cause := by
  cases htree : (readingOf parser root file).tree with
  | none =>
    -- without a tree the project is never looked at
    obtain ⟨fault, hfault⟩ := exists_fault_of_tree_eq_none htree
    have hfault : SourceFault parser root file fault := fault_readSource_eq_some_iff.mp hfault
    refine Or.inl ⟨_, _, fixFile_skipped htree mode state, .skipped hfault, ?_⟩
    rintro cause (⟨hsource, -⟩ | ⟨hsource, -, -, -, -⟩)
    · exact hfault.not_sourceTree hsource
    · exact hfault.not_sourceTree hsource
  | some tree =>
    have hsource := tree_readSource_eq_some_iff.mp htree
    cases mode with
    | ruleBased =>
      have hlanguage : (readingOf parser root file).language = sourceLanguage file := language_readSource
      refine Or.inl ⟨_, _, fixFile_ruleBased htree state, ?_, ?_⟩
      · rw [hlanguage]
        exact .ruleBased hsource
      · rintro cause ⟨⟩
    | generated generator =>
      rcases repoContext_cases root file.parent with ⟨hnone, hcontext⟩ | ⟨error, hfault, hcontext⟩
      · exact workedOn_or_breaksOff htree hsource hnone hcontext state
      · have hfile : (readingOf parser root file).file = file := file_readSource
        refine Or.inr ⟨.package error, state, ?_, .package hsource hfault⟩
        unfold fixFile
        rw [htree, hfile, hcontext]

/-! ## Many files -/

/-- How files are worked on one after another. None of them breaks the run off in the state in which the
generator is when the file is reached. -/
inductive Works (parser : Parser) (c : Config) (root : FileTree) (mode : FixMode σ) :
    σ → List Path → List FileFix → σ → Prop where
  | done (state : σ) : Works parser c root mode state [] [] state
  | step {state next last : σ} {file : Path} {files : List Path} {f : FileFix} {fs : List FileFix}
      (hworked : WorkedOn parser c root mode state file f next)
      (hgoes : ∀ cause, ¬BreaksOff parser c root mode state file cause)
      (hrest : Works parser c root mode next files fs last) :
      Works parser c root mode state (file :: files) (f :: fs) last

/-- **Files are worked on up to the first that breaks the run off.** -/
theorem fixFiles_cases (parser : Parser) (c : Config) (root : FileTree) (mode : FixMode σ)
    (files : List Path) (state : σ) :
    let r := fixFiles parser c root mode files state
    (r.broken = none ∧ Works parser c root mode state files r.files r.state) ∨
      ∃ front file back next cause, files = front ++ file :: back ∧
        Works parser c root mode state front r.files next ∧
        BreaksOff parser c root mode next file cause ∧
        r.broken = some (readingOf parser root file, cause) := by
  dsimp only
  -- the generator may be in any state when a file is reached
  induction files generalizing state with
  | nil => exact Or.inl ⟨rfl, .done state⟩
  | cons file files ih =>
    rcases fixFile_cases parser c root mode file state with
      ⟨f, next, hf, hworked, hgoes⟩ | ⟨cause, next, hcause, hbreaks⟩
    · rw [fixFiles_cons hf]
      rcases ih next with ⟨hbroken, hworks⟩ | ⟨front, other, back, last, cause, rfl, hworks, hbreaks, hbroken⟩
      · exact Or.inl ⟨hbroken, .step hworked hgoes hworks⟩
      · exact Or.inr ⟨file :: front, other, back, last, cause, rfl, .step hworked hgoes hworks, hbreaks,
          hbroken⟩
    · rw [fixFiles_cons_broken hcause]
      exact Or.inr ⟨[], file, files, state, cause, rfl, .done state, hbreaks, rfl⟩

/-! ## Runs -/

/-- **What interrupts a run.** If the scan meets an obstacle, the run ends with it. If not, either no file of
the scan breaks the run off, and then there is a result that tells of each of them in their order; or the run
ends with what the first file that does breaks it off with, and the work on all other files is lost. The
generator goes from one state to the next with each file; it answers with a fix or with an error. There are no
symbolic links in the tree, and the paths of project files are short enough for the system. -/
theorem fixPaths_interrupted (limit : Option Nat) (parser : Parser) (c : Config) (root : FileTree)
    (cwd : Path) (paths : List Path) (mode : FixMode σ) (state : σ) (h : c.HasTextPatterns) :
    (∃ cause, scanWithin limit root cwd c paths = .error (.obstacle cause) ∧
        fixPaths limit parser c root cwd paths mode state = .error (.scan (.obstacle cause))) ∨
      ∃ files, scanWithin limit root cwd c paths = .ok files ∧
        ((∃ r, fixPaths limit parser c root cwd paths mode state = .ok r ∧
            Works parser c root mode state files r.files r.state) ∨
          ∃ front file back fs next cause, files = front ++ file :: back ∧
            Works parser c root mode state front fs next ∧
            BreaksOff parser c root mode next file cause ∧
            fixPaths limit parser c root cwd paths mode state = .error (.file cause)) := by
  rcases exists_scanWithin h limit root cwd paths with ⟨cause, hscan⟩ | ⟨files, hscan, -⟩
  · refine Or.inl ⟨cause, hscan, ?_⟩
    unfold fixPaths
    rw [hscan]
  refine Or.inr ⟨files, hscan, ?_⟩
  rcases fixFiles_cases parser c root mode files state with ⟨hbroken, hworks⟩ |
    ⟨front, file, back, next, cause, hsplit, hworks, hbreaks, hbroken⟩
  · exact Or.inl ⟨_, fixPaths_of_scan hscan hbroken, hworks⟩
  · exact Or.inr ⟨front, file, back, _, next, cause, hsplit, hworks, hbreaks,
      fixPaths_of_broken hscan hbroken⟩

/-- A project with an unused import and a package description that is no text. -/
def undecodablePackage : FileTree :=
  .directory [("app.js", .file (Utf8.encode unusedImport)), ("package.json", .file [0xFF])]

/-- The file breaks the run off, so that asking for a fix of it ends without a result. -/
theorem fixPaths_interrupted_undecodablePackage :
    ({} : Config).HasTextPatterns ∧
      ∃ error, fixPaths (some 10) unusedImportBank.parser {} undecodablePackage ⟨.root, []⟩
        [⟨.relative, []⟩] (.generated (none : Option (Generator Unit))) ()
          = .error (.file (.package error)) := by
  have hpatterns := Config.hasTextPatterns_default
  have hfiles : scanWithin (some 10) undecodablePackage ⟨.root, []⟩ {} [⟨.relative, []⟩]
      = .ok [⟨.root, ["app.js"]⟩] := by decide +kernel
  have htext : undecodablePackage.readText ⟨.root, ["app.js"]⟩ = .ok unusedImport := by decide +kernel
  have hgrammars : (sourceLanguage ⟨.root, ["app.js"]⟩).grammars = [] ++ .javascript :: [] := rfl
  have haccepts : (unusedImportBank.parser .javascript unusedImport).info.hasError = false := by
    decide +kernel
  have hsource := SourceTree.accepted htext hgrammars (by simp) haccepts
  have hpackage : PackageFault undecodablePackage ⟨.root, []⟩ ⟨.startByte, 0, [0xFF]⟩ :=
    ⟨⟨.root, []⟩, [0xFF], by decide +kernel, by decide +kernel, by decide +kernel⟩
  obtain ⟨cause, hfails, -⟩ | ⟨files, hscan, ⟨r, -, hworks⟩ | ⟨front, file, back, fs, next, cause, hsplit, -,
      hbreaks, hfix⟩⟩ := fixPaths_interrupted (some 10) unusedImportBank.parser {} undecodablePackage
    ⟨.root, []⟩ [⟨.relative, []⟩] (.generated (none : Option (Generator Unit))) () hpatterns
  · rw [hfiles] at hfails
    cases hfails
  · obtain rfl := Except.ok.inj (hscan.symm.trans hfiles)
    generalize r.files = fs at hworks
    cases hworks with
    | step hworked hgoes hrest => exact absurd (.package hsource hpackage) (hgoes _)
  · cases hbreaks with
    | package _ _ => exact ⟨hpatterns, _, hfix⟩

/-- A file that the rules change is lost if a generator is asked. -/
theorem fixPaths_loses_changes :
    (¬∃ r, fixPaths (some 10) unusedImportBank.parser {} undecodablePackage ⟨.root, []⟩ [⟨.relative, []⟩]
        (.generated (none : Option (Generator Unit))) () = .ok r) ∧
      ((fixPaths (some 10) unusedImportBank.parser {} undecodablePackage ⟨.root, []⟩ [⟨.relative, []⟩]
          (.ruleBased : FixMode Unit) ()).map FixResult.changes).toOption.map
          (·.map fun change => (change.file.name, change.old, change.new))
        = some [("app.js", unusedImport, [])] := by
  constructor
  · rintro ⟨r, hr⟩
    have hnone : (fixPaths (some 10) unusedImportBank.parser {} undecodablePackage ⟨.root, []⟩
        [⟨.relative, []⟩] (.generated (none : Option (Generator Unit))) ()).toOption.isNone := by
      decide +kernel
    rw [hr] at hnone
    cases hnone
  · decide +kernel

end PatchLint
