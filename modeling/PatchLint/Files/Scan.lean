import PatchLint.Config.Basic
import PatchLint.Config.Validate
import PatchLint.Files.FileTree
import PatchLint.Files.Glob
import PatchLint.Tree.Parse

/-!
# Scanning for sources

The sources below some paths: files with a known suffix that match an included pattern and no
excluded one. Patterns are relative to the path through which a file was reached first.

All paths are walked to the bottom before the first file is decided about. A scan fails there if it cannot
go on (`Obstacle`): this is not caught, and neither is a pattern that is no text (`ScanFault`).
-/

namespace PatchLint

/-! ## Languages of files -/

/-- The suffixes of sources. -/
def sourceSuffixes : List (String × Language) :=
  [(".js", .js), (".jsx", .js), (".mjs", .js), (".cjs", .js),
   (".ts", .ts), (".tsx", .ts), (".mts", .ts), (".cts", .ts)]

/-- The language of a file by its suffix, in any case. -/
def languageOf? (p : Path) : Option Language :=
  (sourceSuffixes.find? (·.1 == lowerAscii p.suffix)).map (·.2)

/-! ## Walking -/

/-- Why a scan cannot go on. -/
inductive Obstacle where
  /-- Directories are nested more deeply than calls can be. -/
  | tooDeep
  /-- The system does not tell what a path denotes, or what a directory holds. -/
  | inaccessible (fault : ReadFault)
  /-- A path holds a null character. -/
  | nullCharacter
  deriving DecidableEq, Repr

/-- The obstacle at something that is found some levels below the path where the walk starts. -/
def obstacleAt? (limit : Option Nat) (levels : Nat) (place : Path) (found : FileTree) : Option Obstacle :=
  if limit.any (· ≤ levels) then some .tooDeep
  else if FileTree.pathLimit < FileTree.byteCount place.parts then some (.inaccessible .nameTooLong)
  else match found with
    | .locked true => some (.inaccessible .denied)
    | _ => none

/-- The first obstacle on the walk from a path. A path that denotes nothing is no obstacle. -/
def obstacle? (limit : Option Nat) (root : FileTree) (cwd p : Path) : Option Obstacle :=
  let place := Path.resolve cwd p
  if (cwd.join p).parts.any (·.toList.contains '\x00') then some .nullCharacter
  else match root.askFile place, root.lookup place with
    | .error fault, _ => some (.inaccessible fault)
    | .ok _, .error _ => none
    | .ok _, .ok t => (t.walk place).findSome? fun (q, found) =>
        obstacleAt? limit (q.parts.length - place.parts.length) q found

/-- The sources at or below an absolute path. -/
def sourcesUnder (root : FileTree) (p : Path) : List Path :=
  match root.lookup p with
  | .error _ => []
  | .ok t =>
    (((t.walk p).filter (!·.2.isDirectory)).map (·.1)).filter fun f => (languageOf? f).isSome

/-! ## Scanning -/

/-- The directory that patterns are relative to for a file: the first of the given paths that is the
file itself, in which case it is the directory of the file, or that lies above it. -/
def baseFor (root : FileTree) (cwd file : Path) : List Path → Path
  | [] => file.parent
  | p :: ps =>
    let place := Path.resolve cwd p
    if root.isFile place then
      if file = place then place.parent else baseFor root cwd file ps
    else if file.isUnder place then place
    else baseFor root cwd file ps

/-- What becomes of a file. -/
inductive Selection where
  | excluded
  | included
  | unmatched
  deriving DecidableEq, Repr

/-- Decides about a file. Excluded patterns come first. -/
def selection (c : Config) (base file : Path) : Except PatternFault Selection :=
  match matchesFrom base file c.excluded with
  | .error e => .error e
  | .ok true => .ok .excluded
  | .ok false =>
    match matchesFrom base file c.included with
    | .error e => .error e
    | .ok true => .ok .included
    | .ok false => .ok .unmatched

/-- What a scan looks at: each source below the paths with the decision about it. -/
def survey (root : FileTree) (cwd : Path) (c : Config) (paths : List Path) :
    List (Path × Except PatternFault Selection) :=
  (paths.flatMap fun p => sourcesUnder root (Path.resolve cwd p)).map fun f =>
    (f, selection c (baseFor root cwd f paths) f)

/-- The decisions up to the first that cannot be made. -/
def decided : List (Path × Except PatternFault Selection) → List (Path × Selection)
  | (f, .ok s) :: rest => (f, s) :: decided rest
  | _ => []

/-- Why the first decision that cannot be made cannot be made. -/
def surveyFault? (seen : List (Path × Except PatternFault Selection)) : Option PatternFault :=
  seen.findSome? fun
    | (_, .error e) => some e
    | _ => none

/-- The included files of a survey, without repetition, in path order. -/
def includedFiles (seen : List (Path × Selection)) : List Path :=
  (((seen.filter (·.2 == .included)).map (·.1)).eraseDups).mergeSort Path.le

/-- The sources to look at, if there is no obstacle. -/
def scan (root : FileTree) (cwd : Path) (c : Config) (paths : List Path) :
    Except PatternFault (List Path) :=
  let seen := survey root cwd c paths
  match surveyFault? seen with
  | some e => .error e
  | none => .ok (includedFiles (decided seen))

/-- Why there is no list of sources. -/
inductive ScanFault where
  | obstacle (cause : Obstacle)
  | pattern (fault : PatternFault)
  deriving DecidableEq, Repr

/-- The sources to look at, with calls that can be nested up to a limit. -/
def scanWithin (limit : Option Nat) (root : FileTree) (cwd : Path) (c : Config) (paths : List Path) :
    Except ScanFault (List Path) :=
  match paths.findSome? (obstacle? limit root cwd) with
  | some cause => .error (.obstacle cause)
  | none => (scan root cwd c paths).mapError .pattern

end PatchLint
