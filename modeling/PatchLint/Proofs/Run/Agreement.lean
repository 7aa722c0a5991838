import PatchLint.Proofs.Files.Lookup
import PatchLint.Proofs.Fix.Outcomes
import PatchLint.Proofs.Run.Reading
import PatchLint.Run.Fix
import PatchLint.Tree.Bank

/-!
# A generator of no use changes what the rules change

Files can be fixed by the rules, or by asking a generator and falling back to the rules. If no answer
of the generator is of use, both ways change the same files in the same way
(`changes_fixPaths_generated`). Asking for a fix also reads the description of the project, which must
be text, and a diff of the generator, which must be one that can be read.

One file is worked on alike (`exists_fixFile`), and so is a list of files (`changes_fixFiles`),
whatever states the generator goes through.
-/

namespace PatchLint

variable {σ τ : Type} {parser : Parser} {c : Config} {root : FileTree}

/-! ## Projects -/

/-- Whether every package description in a tree is text. -/
def PackagesDecodable (root : FileTree) : Prop :=
  ∀ dir bytes, root.readBytes (Path.child dir "package.json") = .ok bytes →
    ∃ t, Utf8.decode bytes = .ok t

theorem exists_repoContext (h : PackagesDecodable root) (start : Path) :
    ∃ context, repoContext root start = .ok context := by
  unfold repoContext
  dsimp only
  split
  · exact ⟨_, rfl⟩
  next dir hdir =>
    rw [FileTree.readText]
    cases hread : root.readBytes (dir.child "package.json") with
    | error e => exact ⟨_, rfl⟩
    | ok bytes =>
      obtain ⟨t, ht⟩ := h dir bytes hread
      simp only [ht]
      exact ⟨_, rfl⟩

/-! ## One file -/

/-- The answer of the generator about a file, if it was asked. -/
def FileFix.answer? (f : FileFix) : Option (Except GenerationError GeneratedFix) :=
  match f.effort with
  | .generated _ report => report.answer
  | _ => none

/-- Whether the generator has been of no use for a file. -/
def FileFix.WithoutHelp (f : FileFix) : Prop :=
  ∀ answer ∈ f.answer?, IsUseless f.reading.source answer

/-- Whether the tree of a reading, if there is one, is that of its text. -/
def SourceReading.IsFaithful (parser : Parser) (reading : SourceReading) : Prop :=
  ∀ tree, reading.tree = some tree → parse parser reading.language reading.source = .ok tree

theorem isFaithful_readSource (cwd file : Path) (language : Option Language) :
    (readSource parser root cwd file language).IsFaithful parser := by
  intro tree h
  unfold readSource at h ⊢
  cases hread : root.readText (cwd.join file) with
  | error fault => rw [hread] at h; cases h
  | ok source =>
    rw [hread] at h
    dsimp only at h ⊢
    rw [parseSource_eq] at h
    cases hparse : parse parser ((language.or (languageOf? file)).getD .js) source with
    | error fault => rw [hparse] at h; cases h
    | ok tree' =>
      rw [hparse] at h
      cases h
      rfl

theorem SourceReading.IsFaithful.findings_eq {reading : SourceReading} {tree : Node}
    (hfaithful : reading.IsFaithful parser) (h : reading.tree = some tree) (rules : RuleConfig) :
    reading.findings rules = analyze parser rules reading.language reading.source := by
  rw [SourceReading.findings, analyze, h, hfaithful tree h]
  rfl

theorem fixFile_skipped {reading : SourceReading} (h : reading.tree = none) (mode : FixMode σ)
    (state : σ) : fixFile parser c root mode reading state = (.ok ⟨reading, .skipped⟩, state) := by
  unfold fixFile
  rw [h]

theorem fixFile_ruleBased {reading : SourceReading} {tree : Node} (h : reading.tree = some tree)
    (state : σ) :
    fixFile parser c root .ruleBased reading state
      = (.ok ⟨reading, .ruleBased (fixRun parser c.rules reading.language reading.source)⟩,
          state) := by
  unfold fixFile
  rw [h]

section Generated

variable {reading : SourceReading} {tree : Node} {context : RepoContext}
  {generator : Option (Generator σ)} {state next : σ}

theorem fixFile_generated (h : reading.tree = some tree)
    (hcontext : repoContext root reading.file.parent = .ok context) {report : FixReport}
    (hreport : validatedFix parser c.rules generator (fixRequest c.rules reading context) state
      = (.ok report, next)) :
    fixFile parser c root (.generated generator) reading state
      = (.ok ⟨reading, .generated (fixRequest c.rules reading context) report⟩, next) := by
  unfold fixFile
  rw [h, hcontext]
  dsimp only
  rw [hreport]

theorem fixFile_illegible (h : reading.tree = some tree)
    (hcontext : repoContext root reading.file.parent = .ok context) {broken : IllegibleFix}
    (hbroken : validatedFix parser c.rules generator (fixRequest c.rules reading context) state
      = (.error broken, next)) :
    fixFile parser c root (.generated generator) reading state
      = (.error (.illegible broken), next) := by
  unfold fixFile
  rw [h, hcontext]
  dsimp only
  rw [hbroken]

end Generated

/-- A fix changes a file if it brings another text. -/
theorem change?_generated {reading : SourceReading} {request : FixRequest} {report : FixReport}
    {new : Text} (h : report.outcome.diff?.bind (applyDiff? reading.source)
      = if new = reading.source then none else some new) :
    (⟨reading, .generated request report⟩ : FileFix).change?
      = if new = reading.source then none else some (reading.source, new) := by
  have hnew : (⟨reading, .generated request report⟩ : FileFix).new?
      = if new = reading.source then none else some new := h
  rw [FileFix.change?, hnew]
  by_cases hsame : new = reading.source
  · rw [if_pos hsame, if_pos hsame]
  · rw [if_neg hsame, if_neg hsame]
    exact if_neg hsame

/-- **One file is worked on alike.** Asking for a fix fails only at a diff that cannot be read, and if the
generator is of no use, the file changes as it does by the rules. -/
theorem exists_fixFile (hpackages : PackagesDecodable root) {reading : SourceReading}
    (hfaithful : reading.IsFaithful parser) (generator : Option (Generator σ)) (state : σ)
    (other : τ) :
    (∃ broken next, fixFile parser c root (.generated generator) reading state
        = (.error (.illegible broken), next)) ∨
      ∃ f g next, fixFile parser c root (.generated generator) reading state = (.ok f, next)
        ∧ fixFile parser c root .ruleBased reading other = (.ok g, other)
        ∧ f.reading = g.reading ∧ (f.WithoutHelp → f.change? = g.change?) := by
  cases htree : reading.tree with
  | none =>
    -- what cannot be parsed is passed over on both ways
    exact Or.inr ⟨_, _, _, fixFile_skipped htree _ _, fixFile_skipped htree _ _, rfl, fun _ => rfl⟩
  | some tree =>
    obtain ⟨context, hcontext⟩ := exists_repoContext hpackages reading.file.parent
    obtain ⟨answer, next, hanswer⟩ : ∃ answer next, validatedFix parser c.rules generator
        (fixRequest c.rules reading context) state = (answer, next) := ⟨_, _, rfl⟩
    cases answer with
    | error broken => exact Or.inl ⟨broken, next, fixFile_illegible htree hcontext hanswer⟩
    | ok report =>
      refine Or.inr ⟨_, _, _, fixFile_generated htree hcontext hanswer, fixFile_ruleBased htree other,
        rfl, fun huseless => ?_⟩
      have hfindings : (fixRequest c.rules reading context).diagnostics
          = analyze parser c.rules reading.language reading.source :=
        hfaithful.findings_eq htree c.rules
      have hreport : (validatedFix parser c.rules generator (fixRequest c.rules reading context)
          state).1 = .ok report := by rw [hanswer]
      exact change?_generated (applied_validatedFix hfindings hreport huseless)

/-! ## Many files -/

theorem changes_cons (f : FileFix) (r : FixResult σ) :
    ({ r with files := f :: r.files } : FixResult σ).changes
      = (f.change?.map fun (old, new) => (⟨f.reading.file, old, new⟩ : FileChange)).toList
        ++ r.changes := by
  rw [FixResult.changes, List.filterMap_cons]
  cases f.change? with
  | none => rfl
  | some texts => rfl

theorem fixFiles_cons {mode : FixMode σ} {file : Path} {state next : σ} {f : FileFix}
    (h : fixFile parser c root mode (readSource parser root ⟨.root, []⟩ file none) state
      = (.ok f, next)) (files : List Path) :
    fixFiles parser c root mode (file :: files) state
      = { fixFiles parser c root mode files next with
          files := f :: (fixFiles parser c root mode files next).files } := by
  rw [fixFiles, h]

theorem fixFiles_cons_broken {mode : FixMode σ} {file : Path} {state next : σ} {cause : FixBreak}
    (h : fixFile parser c root mode (readSource parser root ⟨.root, []⟩ file none) state
      = (.error cause, next)) (files : List Path) :
    fixFiles parser c root mode (file :: files) state
      = ⟨[], some (readSource parser root ⟨.root, []⟩ file none, cause), next⟩ := by
  rw [fixFiles, h]

/-- **Many files are worked on alike,** whatever states the generator goes through, up to a diff that
cannot be read. -/
theorem changes_fixFiles (parser : Parser) (c : Config) (hpackages : PackagesDecodable root)
    (generator : Option (Generator σ)) (files : List Path) (state : σ) (other : τ) :
    let asked := fixFiles parser c root (.generated generator) files state
    let ruled := fixFiles parser c root .ruleBased files other
    (∃ reading broken, asked.broken = some (reading, .illegible broken)) ∨
      asked.broken = none ∧ ruled.broken = none
        ∧ ((∀ f ∈ asked.files, f.WithoutHelp) → asked.changes = ruled.changes) := by
  dsimp only
  induction files generalizing state with
  | nil => exact Or.inr ⟨rfl, rfl, fun _ => rfl⟩
  | cons file files ih =>
    rcases exists_fixFile hpackages (isFaithful_readSource ⟨.root, []⟩ file none) generator state other
      with ⟨broken, next, hbroken⟩ | ⟨f, g, next, hf, hg, hreading, hchange⟩
    · rw [fixFiles_cons_broken hbroken]
      exact Or.inl ⟨_, broken, rfl⟩
    rw [fixFiles_cons hf, fixFiles_cons hg]
    rcases ih next with hbroken | ⟨hasked, hruled, hchanges⟩
    · exact Or.inl hbroken
    refine Or.inr ⟨hasked, hruled, fun huseless => ?_⟩
    have hfirst := hchange (huseless f List.mem_cons_self)
    have hrest := hchanges fun f hf => huseless f (List.mem_cons_of_mem _ hf)
    rw [changes_cons, changes_cons, hreading, hfirst, hrest]

section Scanned

variable {limit : Option Nat} {mode : FixMode σ} {cwd : Path} {paths files : List Path} {state : σ}

theorem fixPaths_of_scan (hscan : scanWithin limit root cwd c paths = .ok files)
    (h : (fixFiles parser c root mode files state).broken = none) :
    fixPaths limit parser c root cwd paths mode state
      = .ok (fixFiles parser c root mode files state) := by
  unfold fixPaths
  rw [hscan]
  dsimp only
  rw [h]

theorem fixPaths_of_broken {reading : SourceReading} {cause : FixBreak}
    (hscan : scanWithin limit root cwd c paths = .ok files)
    (h : (fixFiles parser c root mode files state).broken = some (reading, cause)) :
    fixPaths limit parser c root cwd paths mode state = .error (.file cause) := by
  unfold fixPaths
  rw [hscan]
  dsimp only
  rw [h]

end Scanned

/-! ## Useless generators -/

theorem exists_of_mem_answer {rules : RuleConfig} {generator : Option (Generator σ)}
    {request : FixRequest} {state next : σ} {report : FixReport}
    {answer : Except GenerationError GeneratedFix}
    (h : validatedFix parser rules generator request state = (.ok report, next))
    (hanswer : answer ∈ report.answer) : ∃ ask ∈ generator, (ask request state).1 = answer := by
  have hreport : (validatedFix parser rules generator request state).1 = .ok report := by rw [h]
  by_cases hissues : request.diagnostics = []
  · rw [asked_validatedFix.1 hissues] at hreport
    cases hreport
    cases hanswer
  · rw [asked_validatedFix.2 hissues report hreport] at hanswer
    obtain ⟨ask, hask, hanswer⟩ := Option.map_eq_some_iff.mp hanswer
    exact ⟨ask, hask, hanswer⟩

/-- A generator that is never of use has no diffs that cannot be read. -/
theorem validatedFix_ne_error {rules : RuleConfig} {generator : Option (Generator σ)}
    {request : FixRequest} {state next : σ} {broken : IllegibleFix}
    (h : ∀ ask ∈ generator, ∀ request state, IsUseless request.source (ask request state).1) :
    validatedFix parser rules generator request state ≠ (.error broken, next) := by
  intro hbroken
  have herror : (validatedFix parser rules generator request state).1 = .error broken := by
    rw [hbroken]
  obtain ⟨-, hanswer, hfault⟩ := validatedFix_eq_error_iff.mp herror
  obtain ⟨ask, hask, hanswer⟩ := Option.map_eq_some_iff.mp hanswer
  have hlegible := ifLegible_eq_ok_iff.mp (h ask hask request state broken.fix hanswer)
  rw [hlegible.1] at hfault
  cases hfault

/-- A generator that is never of use is of no use for a file. -/
theorem withoutHelp_of_fixFile {generator : Option (Generator σ)} {reading : SourceReading}
    {state next : σ} {f : FileFix}
    (h : ∀ ask ∈ generator, ∀ request state, IsUseless request.source (ask request state).1)
    (hf : fixFile parser c root (.generated generator) reading state = (.ok f, next)) :
    f.WithoutHelp := by
  intro answer hanswer
  cases htree : reading.tree with
  | none =>
    rw [fixFile_skipped htree] at hf
    cases hf
    cases hanswer
  | some tree =>
    cases hcontext : repoContext root reading.file.parent with
    | error e =>
      unfold fixFile at hf
      rw [htree, hcontext] at hf
      cases hf
    | ok context =>
      obtain ⟨result, next', hresult⟩ : ∃ result next', validatedFix parser c.rules generator
          (fixRequest c.rules reading context) state = (result, next') := ⟨_, _, rfl⟩
      cases result with
      | error broken => exact absurd hresult (validatedFix_ne_error h)
      | ok report =>
        rw [fixFile_generated htree hcontext hresult] at hf
        cases hf
        obtain ⟨ask, hask, rfl⟩ := exists_of_mem_answer hresult hanswer
        exact h ask hask (fixRequest c.rules reading context) state

theorem withoutHelp_of_mem_fixFiles {generator : Option (Generator σ)}
    (h : ∀ ask ∈ generator, ∀ request state, IsUseless request.source (ask request state).1)
    (files : List Path) (state : σ) {f : FileFix}
    (hf : f ∈ (fixFiles parser c root (.generated generator) files state).files) :
    f.WithoutHelp := by
  induction files generalizing state with
  | nil => cases hf
  | cons file files ih =>
    obtain ⟨result, next, hresult⟩ : ∃ result next, fixFile parser c root (.generated generator)
        (readSource parser root ⟨.root, []⟩ file none) state = (result, next) := ⟨_, _, rfl⟩
    cases result with
    | error cause =>
      rw [fixFiles_cons_broken hresult] at hf
      cases hf
    | ok done =>
      rw [fixFiles_cons hresult] at hf
      rcases List.mem_cons.mp hf with rfl | hf
      · exact withoutHelp_of_fixFile h hresult
      · exact ih next hf

/-- **A generator that is never of use is of no use for the files of any run.** -/
theorem withoutHelp_of_fixPaths {limit : Option Nat} {generator : Option (Generator σ)} {cwd : Path}
    {paths : List Path} {state : σ} {r : FixResult σ}
    (h : ∀ ask ∈ generator, ∀ request state, IsUseless request.source (ask request state).1)
    (hr : fixPaths limit parser c root cwd paths (.generated generator) state = .ok r) :
    ∀ f ∈ r.files, f.WithoutHelp := by
  intro f hf
  unfold fixPaths at hr
  cases hscan : scanWithin limit root cwd c paths with
  | error fault => rw [hscan] at hr; cases hr
  | ok files =>
    rw [hscan] at hr
    dsimp only at hr
    split at hr
    · cases hr
    · cases hr
      exact withoutHelp_of_mem_fixFiles h files state hf

/-! ## Agreement -/

/-- **Without a useful generator, asking for fixes changes what the rules change.** Only the files of
this run count: the generator may be of use elsewhere. That a diff is of no use supposes that it can be
read. -/
theorem changes_fixPaths_generated (limit : Option Nat) (parser : Parser) (c : Config)
    (root : FileTree) (cwd : Path) (paths : List Path) (generator : Option (Generator σ)) (state : σ)
    (other : τ) (hpackages : PackagesDecodable root)
    (hlegible : ∀ broken, fixPaths limit parser c root cwd paths (.generated generator) state
      ≠ .error (.file (.illegible broken)))
    (huseless : ∀ r, fixPaths limit parser c root cwd paths (.generated generator) state = .ok r →
      ∀ f ∈ r.files, f.WithoutHelp) :
    (fixPaths limit parser c root cwd paths (.generated generator) state).map FixResult.changes
      = (fixPaths limit parser c root cwd paths .ruleBased other).map FixResult.changes := by
  cases hscan : scanWithin limit root cwd c paths with
  | error fault =>
    unfold fixPaths
    rw [hscan]
    rfl
  | ok files =>
    rcases changes_fixFiles parser c hpackages generator files state other with
      ⟨reading, broken, hbroken⟩ | ⟨hasked, hruled, hchanges⟩
    · exact absurd (fixPaths_of_broken hscan hbroken) (hlegible broken)
    -- the run does not break off, so its answers are known to be of no use
    have hpaths := fixPaths_of_scan hscan hasked
    rw [hpaths, fixPaths_of_scan hscan hruled]
    exact congrArg Except.ok (hchanges (huseless _ hpaths))

/-- A source that is nothing but an unused import. -/
def unusedImport : Text := "import a from 'a';\n".toList

/-- The trees of this source and of the empty one. -/
def unusedImportBank : TreeBank :=
  let token (kind : String) (start stop : Nat) : Node :=
    .mk ⟨kind, start, stop, false, false, false, []⟩ []
  let node (kind : String) (start stop : Nat) (fields : List String) (children : List Node) : Node :=
    .mk ⟨kind, start, stop, true, false, false, fields⟩ children
  [⟨.javascript, unusedImport,
      node "program" 0 19 []
        [node "import_statement" 0 18 []
          [token "import" 0 6,
           node "import_clause" 7 8 [] [node "identifier" 7 8 [] []],
           token "from" 9 13,
           node "string" 14 17 ["source"]
            [token "'" 14 15, node "string_fragment" 15 16 [] [], token "'" 16 17],
           token ";" 17 18]]⟩,
   ⟨.javascript, [], node "program" 0 0 [] []⟩]

/-- A project with this source. -/
def unusedImportProject : FileTree :=
  .directory [("app.js", .file (Utf8.encode unusedImport)),
    ("package.json", .file (Utf8.encode "\x7b\x7d".toList))]

/-- A generator whose answers are no diffs. -/
def chattyGenerator : Generator Nat := fun _ count =>
  (.ok { diff := "I would remove it.".toList }, count + 1)

/-- The import is removed although the generator has no diff to offer. -/
theorem changes_fixPaths_chattyGenerator :
    PackagesDecodable unusedImportProject
      ∧ (∀ broken, fixPaths (some 10) unusedImportBank.parser {} unusedImportProject ⟨.root, []⟩
          [⟨.relative, []⟩] (.generated (some chattyGenerator)) 0 ≠ .error (.file (.illegible broken)))
      ∧ (∀ r, fixPaths (some 10) unusedImportBank.parser {} unusedImportProject ⟨.root, []⟩
            [⟨.relative, []⟩] (.generated (some chattyGenerator)) 0 = .ok r →
          ∀ f ∈ r.files, f.WithoutHelp)
      ∧ ((fixPaths (some 10) unusedImportBank.parser {} unusedImportProject ⟨.root, []⟩
            [⟨.relative, []⟩] (.generated (some chattyGenerator)) 0).map FixResult.changes).toOption.map
          (·.map fun change => (change.file.name, change.old, change.new))
        = some [("app.js", unusedImport, [])] := by
  have hpackages : PackagesDecodable unusedImportProject := by
    intro dir bytes hread
    obtain ⟨q, hq⟩ := FileTree.exists_mem_files_of_readBytes hread ⟨.root, []⟩
    have hall : ∀ item ∈ unusedImportProject.files ⟨.root, []⟩,
        (Utf8.decode item.2).toOption.isSome = true := by decide +kernel
    have hsome := hall _ hq
    cases hdecode : Utf8.decode bytes with
    | error e => rw [hdecode] at hsome; cases hsome
    | ok t => exact ⟨t, rfl⟩
  have hreturns : (fixPaths (some 10) unusedImportBank.parser {} unusedImportProject ⟨.root, []⟩
      [⟨.relative, []⟩] (.generated (some chattyGenerator)) 0).toOption.isSome = true := by
    decide +kernel
  have hlegible : ∀ broken, fixPaths (some 10) unusedImportBank.parser {} unusedImportProject
      ⟨.root, []⟩ [⟨.relative, []⟩] (.generated (some chattyGenerator)) 0
        ≠ .error (.file (.illegible broken)) := by
    intro broken hbroken
    rw [hbroken] at hreturns
    cases hreturns
  have huseless : ∀ ask ∈ some chattyGenerator, ∀ request state,
      IsUseless request.source (ask request state).1 := by
    rintro ask ⟨⟩ request state fix hfix
    cases hfix
    rfl
  refine ⟨hpackages, hlegible, fun r hr => withoutHelp_of_fixPaths huseless hr, ?_⟩
  rw [changes_fixPaths_generated (some 10) unusedImportBank.parser {} unusedImportProject ⟨.root, []⟩
    [⟨.relative, []⟩] (some chattyGenerator) 0 () hpackages hlegible
    fun r hr => withoutHelp_of_fixPaths huseless hr]
  decide +kernel

end PatchLint
