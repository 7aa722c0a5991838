import PatchLint.Command.Usage
import PatchLint.Config.Basic
import PatchLint.Files.FileTree
import PatchLint.Log.Line

/-!
# Command lines

A command line is read in two steps. The options before the command come first (`Opening`); the
options and operands of the command itself are read only after the configuration has been loaded
(`Command`). Both steps check at once that paths which have to exist do, and may be read.
-/

namespace PatchLint

/-! ## Paths -/

/-- A path that has to exist. -/
def checkPath (root : FileTree) (cwd : Path) (label path : String) : Except UsageFault Path :=
  match root.lookupText cwd path with
  | .ok (.locked _) => .error (.invalidValue label (.unreadable false path))
  | .ok _ => .ok (Path.ofString path)
  | .error _ => .error (.invalidValue label (.notFound false path))

/-- A path that must not denote a directory, and has to exist if `required` is set. -/
def checkFile (root : FileTree) (cwd : Path) (label : String) (required : Bool) (path : String) :
    Except UsageFault Path :=
  match root.lookupText cwd path with
  | .ok (.directory _) | .ok (.locked true) => .error (.invalidValue label (.isDirectory path))
  | .ok (.locked false) => .error (.invalidValue label (.unreadable true path))
  | .ok (.file _) => .ok (Path.ofString path)
  | .error _ =>
    if required then .error (.invalidValue label (.notFound true path)) else .ok (Path.ofString path)

/-! ## Before the command -/

/-- What the options before the command say. -/
structure CommonOptions where
  /-- The configuration file that is given. -/
  configFile : Option Path := none
  threshold : LogLevel := .warning
  deriving DecidableEq, Repr

/-- What a command line asks for, as far as it is read before the configuration. -/
inductive Opening where
  | version
  | help
  | command (options : CommonOptions) (name : CommandName) (rest : List String)
  deriving DecidableEq, Repr

/-- The request for the version or for help, whichever comes first. -/
def Opening.ofOptions? (args : Arguments) : Option Opening :=
  args.options.findSome? fun (name, _) =>
    if name = "--version" then some .version
    else if name = "--help" then some .help
    else none

/-- The level from which on log lines are shown. -/
def thresholdOf (args : Arguments) : LogLevel :=
  if args.has "--debug" then .debug else if args.has "--verbose" then .info else .warning

/-- What the options before a command say, and what follows them; or else a request that does not need
a command. -/
def readCommonOptions (root : FileTree) (cwd : Path) (args : List String) :
    Except UsageFault (Opening ⊕ CommonOptions × List String) :=
  match readArguments commonOptions false args with
  | .error fault => .error (.arguments fault)
  | .ok given =>
    match Opening.ofOptions? given with
    | some opening => .ok (.inl opening)
    | none =>
      let options (file : Option Path) : CommonOptions := ⟨file, thresholdOf given⟩
      match given.value? "--config" with
      | none => .ok (.inr (options none, given.operands))
      | some path =>
        (checkFile root cwd "--config" false path).map fun file =>
          .inr (options (some file), given.operands)

/-- A word where a command has to be. What is written like an option is first read as one. -/
def refuseCommand (root : FileTree) (cwd : Path) (name : String) (args : List String) :
    Except UsageFault Opening :=
  let refused := UsageFault.unknownCommand name (closeNames name (CommandName.all.map (·.name)))
  if looksLikeOption name then
    match readCommonOptions root cwd args with
    | .error fault => .error fault
    | .ok (.inl opening) => .ok opening
    | .ok (.inr _) => .error refused
  else .error refused

/-- Reads a command line up to its command. -/
def Opening.read (root : FileTree) (cwd : Path) (args : List String) : Except UsageFault Opening :=
  if args.isEmpty then .ok .help
  else
    match readCommonOptions root cwd args with
    | .error fault => .error fault
    | .ok (.inl opening) => .ok opening
    | .ok (.inr (_, [])) => .error .missingCommand
    | .ok (.inr (options, name :: rest)) =>
      match CommandName.ofName? name with
      | some known => .ok (.command options known rest)
      | none => refuseCommand root cwd name (name :: rest)

/-! ## The command -/

/-- What is done with the changes of a fix. -/
inductive FixAction where
  | write
  | check
  | showDiff
  deriving DecidableEq, Repr

/-- What is done with a patch. -/
inductive PatchAction where
  | write
  | check
  | showEdits
  deriving DecidableEq, Repr

/-- What is shown of the configuration. -/
inductive ConfigAction where
  | validate
  | showJson
  | showText
  deriving DecidableEq, Repr

/-- A command with all it needs. -/
inductive Command where
  | apply (file patch : Path) (action : PatchAction)
  | config (action : ConfigAction)
  | explain (code : Option String)
  | listRules
  | fix (paths : List Path) (action : FixAction) (useGenerator : Bool)
  | lint (paths : List Path) (format : Option OutputFormat) (showSource : Option Bool)
  deriving DecidableEq, Repr

/-- What is looked at if no paths are given: the working directory. -/
def orWorkingDirectory (paths : List Path) : List Path :=
  if paths.isEmpty then [⟨.relative, []⟩] else paths

/-- Operands that are paths. -/
def checkPaths (root : FileTree) (cwd : Path) (operands : List String) :
    Except UsageFault (List Path) :=
  (operands.mapM (checkPath root cwd "[PATHS]...")).map orWorkingDirectory

/-- Refuses operands that are left over. -/
def finish (command : Command) : List String → Except UsageFault Command
  | [] => .ok command
  | extra => .error (.extraOperands extra)

/-- The configured format, if another one is given. -/
def formatOf (given : Arguments) : Except UsageFault (Option OutputFormat) :=
  match given.value? "--format" with
  | none => .ok none
  | some name =>
    match OutputFormat.ofName? name with
    | some format => .ok (some format)
    | none =>
      .error (.invalidValue "--format" (.notAmong name (OutputFormat.all.map (·.name))))

/-- The file of a patch command. -/
def readPatchOperands (root : FileTree) (cwd : Path) (action : PatchAction) :
    List String → Except UsageFault Command
  | [] => .error (.missingOperand "FILE")
  | file :: rest =>
    match checkFile root cwd "FILE" true file, rest with
    | .error fault, _ => .error fault
    | .ok _, [] => .error (.missingOperand "PATCH")
    | .ok file, patch :: extra =>
      match checkFile root cwd "PATCH" true patch with
      | .error fault => .error fault
      | .ok patch => finish (.apply file patch action) extra

/-- The command of arguments that have been read. -/
def Command.ofArguments (root : FileTree) (cwd : Path) (given : Arguments) :
    CommandName → Except UsageFault Command
  | .apply =>
    readPatchOperands root cwd
      (if given.has "--check" then .check else if given.has "--edits" then .showEdits else .write)
      given.operands
  | .config =>
    finish (.config (if given.has "--validate" then .validate
      else if given.has "--json" then .showJson else .showText)) given.operands
  | .explain =>
    finish (if given.has "--all" then .listRules else .explain given.operands.head?)
      (given.operands.drop 1)
  | .fix =>
    (checkPaths root cwd given.operands).map fun paths =>
      .fix paths
        (if given.has "--diff" then .showDiff else if given.has "--check" then .check else .write)
        ((given.switch? "--generator" "--no-generator").getD false)
  | .lint =>
    match formatOf given with
    | .error fault => .error fault
    | .ok format =>
      (checkPaths root cwd given.operands).map fun paths =>
        .lint paths format (given.switch? "--show-source" "--no-show-source")

/-- Reads the arguments of a command; `none` is a request for help. -/
def Command.read (root : FileTree) (cwd : Path) (name : CommandName) (args : List String) :
    Except UsageFault (Option Command) :=
  match readArguments name.options true args with
  | .error fault => .error (.arguments fault)
  | .ok given =>
    if given.has "--help" then .ok none
    else (Command.ofArguments root cwd given name).map some

end PatchLint
