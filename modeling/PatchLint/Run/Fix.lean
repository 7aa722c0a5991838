import PatchLint.Fix.Validated
import PatchLint.Run.Source

/-!
# Fixing files

Every source below some paths is fixed: by the rules alone, or by asking a generator. Files that
cannot be parsed are passed over. Nothing is written here; the result tells which files change.

Two things are not caught when a generator is to be asked about a file, and end the work on all files
(`FixBreak`). What the rules have made of a file is applied without looking for long numbers in the diff:
there are none.
-/

namespace PatchLint

/-! ## Projects -/

/-- What is known about the project of a directory: the nearest directory at or above it that has one
of the two project files decides. A package description that cannot be decoded is an error. The paths of
project files are taken to be short enough. -/
def repoContext (root : FileTree) (start : Path) : Except Utf8.DecodeError RepoContext :=
  let isProject (dir : Path) :=
    root.isFile (dir.child "package.json") || root.isFile (dir.child "tsconfig.json")
  match start.selfAndParents.find? isProject with
  | none => .ok {}
  | some dir =>
    let hasTsconfig := root.isFile (dir.child "tsconfig.json")
    match root.readText (dir.child "package.json") with
    | .ok t => .ok ⟨some t, hasTsconfig⟩
    | .error (.undecodable e) => .error e
    | .error (.unreadable _) => .ok ⟨none, hasTsconfig⟩

/-! ## Files -/

/-- How a file is fixed. -/
inductive FixMode (σ : Type) where
  | ruleBased
  | generated (generator : Option (Generator σ))

/-- What has been done about a file. -/
inductive FixEffort where
  /-- It cannot be parsed. -/
  | skipped
  | ruleBased (run : FixRun)
  | generated (request : FixRequest) (report : FixReport)

/-- A file that has been worked on. -/
structure FileFix where
  reading : SourceReading
  effort : FixEffort

/-- The text of a file after the work on it, if there is one. -/
def FileFix.new? (f : FileFix) : Option Text :=
  match f.effort with
  | .skipped => none
  | .ruleBased run => some run.text
  | .generated _ report => report.outcome.diff?.bind (applyDiff? f.reading.source)

/-- The text before and after, if the file changes. -/
def FileFix.change? (f : FileFix) : Option (Text × Text) :=
  match f.new? with
  | none => none
  | some new => if new = f.reading.source then none else some (f.reading.source, new)

/-- The outcome of asking for a fix, if that was done. -/
def FileFix.outcome? (f : FileFix) : Option FixOutcome :=
  match f.effort with
  | .generated _ report => some report.outcome
  | _ => none

/-- The request for a fix of a file. -/
def fixRequest (c : RuleConfig) (reading : SourceReading) (context : RepoContext) : FixRequest where
  source := reading.source
  language := reading.language
  filePath := reading.file.toString
  diagnostics := reading.findings c
  repoContext := some context

/-- What ends the work on files at one of them. -/
inductive FixBreak where
  /-- The package description of its project is no text. -/
  | package (error : Utf8.DecodeError)
  /-- The diff of the generator cannot be read. -/
  | illegible (broken : IllegibleFix)
  deriving DecidableEq, Repr

/-- Works on a file that has been read. -/
def fixFile {σ : Type} (parser : Parser) (c : Config) (root : FileTree) (mode : FixMode σ)
    (reading : SourceReading) (state : σ) : Except FixBreak FileFix × σ :=
  match reading.tree, mode with
  | none, _ => (.ok ⟨reading, .skipped⟩, state)
  | some _, .ruleBased =>
    (.ok ⟨reading, .ruleBased (fixRun parser c.rules reading.language reading.source)⟩, state)
  | some _, .generated generator =>
    match repoContext root reading.file.parent with
    | .error e => (.error (.package e), state)
    | .ok context =>
      let request := fixRequest c.rules reading context
      match validatedFix parser c.rules generator request state with
      | (.error broken, state) => (.error (.illegible broken), state)
      | (.ok report, state) => (.ok ⟨reading, .generated request report⟩, state)

/-! ## Many files -/

/-- The files worked on, the file at which the work broke off if it did, and the state of the
generator. -/
structure FixResult (σ : Type) where
  files : List FileFix
  broken : Option (SourceReading × FixBreak)
  state : σ

/-- Works on files in their order, up to one that ends the work. -/
def fixFiles {σ : Type} (parser : Parser) (c : Config) (root : FileTree) (mode : FixMode σ) :
    List Path → σ → FixResult σ
  | [], state => ⟨[], none, state⟩
  | file :: rest, state =>
    let reading := readSource parser root ⟨.root, []⟩ file none
    match fixFile parser c root mode reading state with
    | (.error cause, state) => ⟨[], some (reading, cause), state⟩
    | (.ok done, state) =>
      let more := fixFiles parser c root mode rest state
      { more with files := done :: more.files }

/-- A file that changes: its path, and its text before and after. -/
structure FileChange where
  file : Path
  old : Text
  new : Text

/-- The files that change. -/
def FixResult.changes {σ : Type} (r : FixResult σ) : List FileChange :=
  r.files.filterMap fun f => f.change?.map fun (old, new) => ⟨f.reading.file, old, new⟩

/-- The outcomes of asking for fixes. -/
def FixResult.outcomes {σ : Type} (r : FixResult σ) : List (Path × FixOutcome) :=
  r.files.filterMap fun f => f.outcome?.map (f.reading.file, ·)

/-- The diff of a change, with the path under two prefixes as names. -/
def FileChange.diff (c : FileChange) (path : String) : Text :=
  createDiff c.old c.new ("a/" ++ path).toList ("b/" ++ path).toList defaultContext

/-- Why files cannot be fixed. -/
inductive FixFault where
  | scan (fault : ScanFault)
  | file (cause : FixBreak)
  deriving DecidableEq, Repr

/-- Works on the sources below some paths. -/
def fixPaths {σ : Type} (limit : Option Nat) (parser : Parser) (c : Config) (root : FileTree)
    (cwd : Path) (paths : List Path) (mode : FixMode σ) (state : σ) :
    Except FixFault (FixResult σ) :=
  match scanWithin limit root cwd c paths with
  | .error fault => .error (.scan fault)
  | .ok files =>
    let result := fixFiles parser c root mode files state
    match result.broken with
    | some (_, cause) => .error (.file cause)
    | none => .ok result

end PatchLint
