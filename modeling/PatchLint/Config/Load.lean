import PatchLint.Config.Validate
import PatchLint.Files.FileTree
import PatchLint.Toml.Reader

/-!
# Loading a configuration

The configuration is the program's table among the tools of the nearest project file at or above the
working directory. Without such a file the defaults hold. All these directories are taken to be ones that may be
entered, as the working directory of a run is. The text of the file is read without limits on how
deeply its values are nested and how many digits its numbers have; only printing a wrong setting has limits.
-/

namespace PatchLint

/-- The name of the project file. -/
def projectFile : String := "pyproject.toml"

/-- The project file of the nearest directory at or above a path. -/
def findConfig? (root : FileTree) (cwd start : Path) : Option Path :=
  ((Path.resolve cwd start).selfAndParents.map (·.child projectFile)).find? root.isFile

/-- Why a configuration cannot be loaded. -/
inductive LoadFault where
  | invalidToml (path message : String)
  | unreadable (path : String) (fault : ReadFault)
  | undecodable (error : Utf8.DecodeError)
  | settings (path : String) (fault : ConfigFault)
  deriving DecidableEq, Repr

/-- The settings in the table of a project file. -/
def toolSettings (fields : List (String × Value)) : Except ConfigFault Value :=
  match (Json.lookup "tool" fields).getD (.table []) with
  | .table tools => .ok ((Json.lookup "codefixer" tools).getD (.table []))
  | _ => .error .notATable

/-- The configuration in a project file. -/
def Config.ofProjectFile (limits : PrintLimits) (path : String) (bytes : List UInt8) :
    Except LoadFault Config :=
  match Utf8.decode bytes with
  | .error e => .error (.undecodable e)
  | .ok t =>
    match Toml.parse t with
    | .error message => .error (.invalidToml path message)
    | .ok fields =>
      match toolSettings fields with
      | .error e => .error (.settings path e)
      | .ok settings =>
        match Config.ofValue limits (some path) settings with
        | .error e => .error (.settings path e)
        | .ok c => .ok c

/-- Loads the configuration from a given project file, or from the nearest one. -/
def Config.load (limits : PrintLimits) (root : FileTree) (cwd : Path) (path : Option Path) :
    Except LoadFault Config :=
  match path.or (findConfig? root cwd ⟨.relative, []⟩) with
  | none => .ok {}
  | some p =>
    match root.readBytes (cwd.join p) with
    | .error e => .error (.unreadable p.toString e)
    | .ok bytes => Config.ofProjectFile limits p.toString bytes

end PatchLint
