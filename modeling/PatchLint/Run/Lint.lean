import PatchLint.Report.Collection
import PatchLint.Run.Source

/-!
# Linting files

Every source below some paths is read and analysed. A file gives either one syntax error or its
findings. A file with neither a tree nor a syntax error would end the run (`LintFault.noSyntaxError`).
-/

namespace PatchLint

/-- A file that has been linted. -/
structure FileLint where
  reading : SourceReading
  findings : List Diagnostic

/-- The files that have been linted, and what has been found in them. -/
structure LintResult where
  files : List FileLint
  collection : Collection

/-- Why files cannot be linted. -/
inductive LintFault where
  | scan (fault : ScanFault)
  /-- A file without a tree has no syntax error. -/
  | noSyntaxError
  deriving DecidableEq, Repr

/-- Lints a file. -/
def lintFile (parser : Parser) (c : Config) (root : FileTree) (file : Path) : FileLint :=
  let reading := readSource parser root ⟨.root, []⟩ file none
  ⟨reading, reading.findings c.rules⟩

/-- Adds what has been found in a file. -/
def FileLint.addTo (f : FileLint) (c : Collection) : Except LintFault Collection :=
  let file := f.reading.file.toString
  match f.reading.tree with
  | some _ => .ok (c.addAll (f.findings.map (locateIn file f.reading.bytes)))
  | none =>
    match f.reading.fault with
    | none => .error .noSyntaxError
    | some fault => .ok <| c.addSyntaxError
        { file := file
          place := { line := fault.line, column := fault.column }
          message := fault.message
          sourceLine := fault.sourceLine }

namespace LintResult

/-- The number of files. -/
def filesChecked (r : LintResult) : Nat := r.files.length

/-- The exit code: one if there is an error. -/
def exitCode (r : LintResult) : Nat := if r.collection.hasErrors then 1 else 0

end LintResult

/-- Lints files. -/
def lintFiles (parser : Parser) (c : Config) (root : FileTree) (files : List Path) :
    Except LintFault LintResult :=
  let linted := files.map (lintFile parser c root)
  (linted.foldlM (fun c (f : FileLint) => f.addTo c) {}).map (⟨linted, ·⟩)

/-- Lints the sources below some paths. -/
def lintPaths (limit : Option Nat) (parser : Parser) (c : Config) (root : FileTree) (cwd : Path)
    (paths : List Path) : Except LintFault LintResult :=
  match scanWithin limit root cwd c paths with
  | .error fault => .error (.scan fault)
  | .ok files => lintFiles parser c root files

end PatchLint
