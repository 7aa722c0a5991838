import PatchLint.Command.Basic
import PatchLint.Config.Load
import PatchLint.Config.View
import PatchLint.Diff.TextEdit
import PatchLint.Log.Trace
import PatchLint.Report.Catalog
import PatchLint.Report.Format

/-!
# Running a command line

A run takes a session (the files, the working directory, the environment and the network) to what it
prints, how it ends, and the session after it. Files change only by commands that write.

Most faults are reported to the user with an exit code. Some are not caught, and end the run where they
occur (`Crash`). That a file may not be written is none of them: whatever can be read can be written here.
-/

namespace PatchLint

/-- How deeply calls can be nested where files and settings are looked at. -/
structure NestingLimits where
  directories : Option Nat := none
  settings : PrintLimits := {}

/-- What a run works on. -/
structure Session where
  root : FileTree
  cwd : Path
  environment : Environment := {}
  network : Network := {}
  limits : NestingLimits := {}

/-- A fault that ends a run. -/
inductive Crash where
  /-- A file that has to be text is none. -/
  | undecodable (error : Utf8.DecodeError)
  /-- The configuration cannot be checked to its end. -/
  | settings (fault : ConfigFault)
  | scan (fault : ScanFault)
  | lint (fault : LintFault)
  /-- The work on files breaks off at one of them. -/
  | fix (cause : FixBreak)
  /-- A number in a patch is too long. -/
  | overlong (number : OverlongNumber)
  /-- A pattern that is no text has to be shown. -/
  | unprintable
  deriving DecidableEq, Repr

/-- How a run ends. -/
inductive Ending where
  | exit (code : Nat)
  | crash (cause : Crash)
  deriving DecidableEq, Repr

/-- What a run prints, how it ends, and what it leaves behind. -/
structure RunResult where
  out : String := ""
  err : String := ""
  ending : Ending := .exit 0
  session : Session

/-- The exit code of a run. -/
def RunResult.exitCode (r : RunResult) : Nat :=
  match r.ending with
  | .exit code => code
  | .crash _ => 1

/-- Puts something in front of what a run prints for errors. -/
def RunResult.withErr (r : RunResult) (text : String) : RunResult := { r with err := text ++ r.err }

namespace Session

/-! ## Endings -/

/-- Prints a line and succeeds. -/
def printed (s : Session) (line : String) : RunResult := { out := line ++ "\n", session := s }

/-- Prints a line for errors and fails. -/
def refused (s : Session) (line : String) : RunResult :=
  { err := line ++ "\n", ending := .exit 1, session := s }

/-- Breaks off. -/
def crashed (s : Session) (cause : Crash) : RunResult := { ending := .crash cause, session := s }

/-- Reports a command line that cannot be used. -/
def misused (s : Session) (fault : UsageFault) (scope : UsageScope) : RunResult :=
  { err := fault.report scope, ending := .exit 2, session := s }

/-- Prints how something is used. -/
def helped (s : Session) (scope : UsageScope) : RunResult := s.printed scope.usage

/-! ## Configuration and rules -/

/-- Shows or validates the configuration. -/
def runConfig (s : Session) (c : Config) : ConfigAction → RunResult
  | .validate => s.printed ("Configuration valid: " ++ c.origin)
  | .showJson =>
    match c.toJson? with
    | none => s.crashed .unprintable
    | some j => s.printed j.render
  | .showText =>
    match c.toText? with
    | none => s.crashed .unprintable
    | some t => s.printed t

/-- The severity of the rule of a code. -/
def severityName (c : RuleConfig) (code : String) : String :=
  ((Rule.ofCode? code).map fun r => (c.severity r).name).getD ""

/-- Lists all rules. -/
def runListRules (s : Session) (c : Config) : RunResult :=
  s.printed ((ruleTable? ruleCatalog (severityName c.rules)).getD "")

/-- Explains a rule. Without a code it tells what to give. -/
def runExplain (s : Session) : Option String → RunResult
  | none =>
    { s.printed "Usage: codefixer explain <RULE_CODE> or codefixer explain --all" with
      ending := .exit 1 }
  | some code =>
    let code := String.ofList (Text.upper code.toList)
    match Rule.ofCode? code with
    | none => s.refused ("Error: Unknown rule code '" ++ code ++ "'.")
    | some rule => s.printed (rule.info.detail rule.defaultSeverity.name)

/-! ## Scanning -/

/-- Scans for sources and goes on with those that are found. -/
def scanThen (s : Session) (c : Config) (threshold : LogLevel) (paths : List Path)
    (goOn : List Path → RunResult) : RunResult :=
  match paths.findSome? (obstacle? s.limits.directories s.root s.cwd) with
  | some cause => s.crashed (.scan (.obstacle cause))
  | none =>
    let seen := survey s.root s.cwd c paths
    let result := match surveyFault? seen with
      | some fault => s.crashed (.scan (.pattern fault))
      | none => goOn (includedFiles (decided seen))
    result.withErr (Log.render threshold (scanLog (decided seen)))

/-! ## Linting -/

/-- The configuration after what the command line says. -/
def overridden (c : Config) (format : Option OutputFormat) (showSource : Option Bool) : Config :=
  { c with
    outputFormat := format.getD c.outputFormat
    showSource := showSource.getD c.showSource }

/-- Lints the sources below some paths and prints the findings. -/
def runLint (s : Session) (parser : Parser) (c : Config) (threshold : LogLevel)
    (paths : List Path) : RunResult :=
  s.scanThen c threshold paths fun files =>
    match lintFiles parser c s.root files with
    | .error fault => s.crashed (.lint fault)
    | .ok found =>
      { out := found.collection.report c found.filesChecked ++ "\n"
        err := Log.render threshold found.log
        ending := .exit found.exitCode
        session := s }

/-! ## Fixing -/

/-- A number of files in words. -/
def filesText (count : Nat) : String :=
  Text.showNat count ++ (if count = 1 then " file" else " files")

/-- Writes the changed files. -/
def written (s : Session) (changes : List FileChange) : Session :=
  { s with root := changes.foldl (fun root c => root.write c.file (Utf8.encode c.new)) s.root }

/-- Writes, checks or shows the changes. -/
def useChanges (s : Session) (changes : List FileChange) : FixAction → RunResult
  | .showDiff =>
    let diffs := changes.map fun c => String.ofList (c.diff c.file.toString)
    s.printed (String.join diffs ++ filesText changes.length ++ " would be changed.")
  | .check =>
    if changes.isEmpty then s.printed "No changes needed."
    else
      { s.printed (filesText changes.length ++ " would be changed.") with ending := .exit 1 }
  | .write => (s.written changes).printed ("Fixed " ++ filesText changes.length ++ ".")

/-- What is printed when the generator is asked for and there is none. -/
def generatorWarning (s : Session) (c : Config) (threshold : LogLevel) : String :=
  (if lacksKey c.generator s.environment then
    Log.render threshold
      [⟨.warning, .generator, "OPENROUTER_API_KEY is not set; generator disabled"⟩]
   else "")
  ++ "Warning: no generator available; using rule-based fixes only.\n"

/-- Fixes the sources below some paths, with the given way of fixing a file. -/
def fixWith (s : Session) (parser : Parser) (c : Config) (threshold : LogLevel)
    (paths : List Path) (action : FixAction) (endpoint : Option ChatEndpoint)
    (mode : FixMode Network) : RunResult :=
  s.scanThen c threshold paths fun files =>
    let fixed := fixFiles parser c s.root mode files s.network
    let after := { s with network := fixed.state }
    let result := match fixed.broken with
      | some (_, cause) => after.crashed (.fix cause)
      | none => after.useChanges fixed.changes action
    result.withErr
      (Log.render threshold (filesToFixLine files :: fixed.log parser c.rules endpoint))

/-- Fixes the sources below some paths. -/
def runFix (s : Session) (parser : Parser) (c : Config) (threshold : LogLevel)
    (paths : List Path) (action : FixAction) (useGenerator : Bool) : RunResult :=
  if useGenerator then
    match endpoint? c.generator s.environment with
    | some e =>
      s.fixWith parser c threshold paths action (some e) (.generated (some e.generator))
    | none =>
      (s.fixWith parser c threshold paths action none (.generated none)).withErr
        (s.generatorWarning c threshold)
  else s.fixWith parser c threshold paths action none .ruleBased

/-! ## Applying a patch -/

/-- A text edit in JSON. -/
def editJson (e : TextEdit) : Json :=
  .obj [("start_line", .int e.startLine), ("end_line", .int e.endLine),
    ("new_text", .str (String.ofList e.newText))]

/-- Uses a patch that applies: `patched` is the text after it. -/
def usePatch (s : Session) (file : Path) (diff patched : Text) : PatchAction → RunResult
  | .check => s.printed ("Patch applies cleanly to " ++ file.toString)
  | .showEdits => s.printed (Json.arr (((diffEdits? diff).getD []).map editJson)).render
  | .write =>
    { s with root := s.root.write (Path.resolve s.cwd file) (Utf8.encode patched) }.printed
      ("Patched " ++ file.toString)

/-- The text of a file that is known to exist. -/
def textOf (s : Session) (file : Path) : Except Utf8.DecodeError Text :=
  match s.root.readText (s.cwd.join file) with
  | .ok t => .ok t
  | .error (.undecodable e) => .error e
  | .error (.unreadable _) => .ok []

/-- Applies a patch to a file. -/
def runApply (s : Session) (threshold : LogLevel) (file patch : Path) (action : PatchAction) :
    RunResult :=
  match s.textOf file, s.textOf patch with
  | .error e, _ => s.crashed (.undecodable e)
  | .ok _, .error e => s.crashed (.undecodable e)
  | .ok before, .ok diff =>
    match ifLegible diff (applyDiff? before diff) with
    | .error number => (s.crashed (.overlong number)).withErr (Log.render threshold (readingLog diff))
    | .ok applied =>
      let result := match applied with
        | none => s.refused ("Error: patch does not apply to " ++ file.toString)
        | some patched => s.usePatch file diff patched action
      result.withErr (Log.render threshold (diffLog before diff))

/-! ## All together -/

/-- Runs a command. -/
def runCommand (s : Session) (parser : Parser) (c : Config) (threshold : LogLevel) :
    Command → RunResult
  | .apply file patch action => s.runApply threshold file patch action
  | .config action => s.runConfig c action
  | .explain code => s.runExplain code
  | .listRules => s.runListRules c
  | .fix paths action useGenerator => s.runFix parser c threshold paths action useGenerator
  | .lint paths format showSource =>
    s.runLint parser (overridden c format showSource) threshold paths

/-- Ends a run whose configuration cannot be loaded. -/
def unconfigured (s : Session) : LoadFault → RunResult
  | .invalidToml path message => s.refused ("Error: Invalid TOML: " ++ message ++ "\n  in: " ++ path)
  | .unreadable path fault =>
    s.refused ("Error: Cannot read config file: " ++ fault.message path ++ "\n  in: " ++ path)
  | .undecodable error => s.crashed (.undecodable error)
  | .settings path (.invalid problems) =>
    s.refused ("Error: " ++ problemsMessage problems ++ "\n  in: " ++ path)
  | .settings _ fault => s.crashed (.settings fault)

/-- Runs a command line. -/
def run (s : Session) (parser : Parser) (args : List String) : RunResult :=
  match Opening.read s.root s.cwd args with
  | .error fault => s.misused fault none
  | .ok .version => s.printed (programName ++ ", version " ++ programVersion)
  | .ok .help => s.helped none
  | .ok (.command options name rest) =>
    match Config.load s.limits.settings s.root s.cwd options.configFile with
    | .error fault => s.unconfigured fault
    | .ok c =>
      match Command.read s.root s.cwd name rest with
      | .error fault => s.misused fault (some name)
      | .ok none => s.helped (some name)
      | .ok (some command) => s.runCommand parser c options.threshold command

end Session

end PatchLint
