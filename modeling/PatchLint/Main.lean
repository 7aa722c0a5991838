import PatchLint.Command.Run
import PatchLint.Json.Reader
import PatchLint.Tree.Bank

/-!
# The program

Reads the files below the working directory and the project files above it, runs the command line on
them, prints what the run prints and writes the files it has changed. The trees of the sources are
given on standard input as one JSON list (`TreeBank`); there is no network.
-/

namespace PatchLint

/-- What is read at an entry, or something locked if it may not be read. -/
def orLocked (isDirectory : Bool) (read : IO FileTree) : IO FileTree := do
  try read
  catch
    | .permissionDenied .. => return .locked isDirectory
    | error => throw error

/-- Reads a file or a directory to the bottom. -/
partial def readEntry (entry : IO.FS.DirEntry) : IO (String × FileTree) := do
  let isDirectory ← entry.path.isDir
  let found ← orLocked isDirectory do
    if isDirectory then
      let entries ← entry.path.readDir
      return .directory (← entries.toList.mapM readEntry)
    else
      let bytes ← IO.FS.readBinFile entry.path
      return .file bytes.toList
  return (entry.fileName, found)

/-- The files that tell something about the project a directory belongs to. -/
def projectFiles : List String := [projectFile, "package.json", "tsconfig.json"]

/-- Puts a file into a tree if there is such a file on the disk. -/
def withFile (root : FileTree) (p : Path) : IO FileTree := do
  try
    let found ← orLocked false do
      let bytes ← IO.FS.readBinFile p.toString
      return .file bytes.toList
    return root.put found p.parts
  catch _ => return root

/-- The files that a run can see from a working directory. -/
def readFiles (cwd : Path) : IO FileTree := do
  let entries ← (← IO.currentDir).readDir
  let here := FileTree.directory (← entries.toList.mapM readEntry)
  let above := cwd.parent.selfAndParents.flatMap fun dir => projectFiles.map dir.child
  above.foldlM withFile (FileTree.empty.put here cwd.parts)

/-- Writes the files in which two trees differ. -/
def writeFiles (before after : FileTree) : IO Unit := do
  let old := before.files ⟨.root, []⟩
  for (path, bytes) in after.files ⟨.root, []⟩ do
    unless old.contains (path, bytes) do
      IO.FS.writeBinFile path.toString ⟨bytes.toArray⟩

/-- The trees on standard input. -/
def readTrees : IO TreeBank := do
  let input ← (← IO.getStdin).readToEnd
  match Json.parse input.toList with
  | .ok j => return .ofJson j
  | .error _ => return []

/-- How deeply calls can be nested where a command runs. -/
def nestingLimit : Option Nat := some 980

/-- The limits of a command. -/
def commandLimits : NestingLimits where
  directories := nestingLimit
  settings := ⟨nestingLimit, nestingLimit, nestingLimit⟩

/-- Runs a command line and gives its exit code. -/
def runProgram (args : List String) : IO UInt32 := do
  let cwd := Path.ofString (← IO.currentDir).toString
  let root ← readFiles cwd
  let environment : Environment :=
    ⟨← IO.getEnv "OPENROUTER_API_KEY", ← IO.getEnv "OLLAMA_BASE_URL"⟩
  let session : Session :=
    { root := root, cwd := cwd, environment := environment, limits := commandLimits }
  let result := session.run (← readTrees).parser args
  IO.print result.out
  IO.eprint result.err
  writeFiles root result.session.root
  return UInt32.ofNat result.exitCode

end PatchLint

/-- Runs the command line. -/
def main (args : List String) : IO UInt32 := PatchLint.runProgram args
