import PatchLint.Generator.Chat
import PatchLint.Log.Line
import PatchLint.Run.Fix
import PatchLint.Run.Lint
import PatchLint.Text.Quoted

/-!
# What a run logs

The log of a run is read off its result: what was scanned, what became of each file, which fixes were
tried. Running and logging are thereby kept apart, and a result says everything that its log shows.
-/

namespace PatchLint

/-! ## Scanning and parsing -/

/-- The lines about the files that a scan leaves out. -/
def scanLog (seen : List (Path × Selection)) : Log :=
  (seen.filter (·.2 == .excluded)).map fun (file, _) =>
    ⟨.debug, .scanner, "Excluded " ++ file.toString⟩

/-- The lines about grammars that reject a text. -/
def rejectionLog (label : String) (grammars : List Grammar) : Log :=
  grammars.map fun g => ⟨.debug, .parser, g.name ++ " grammar rejected " ++ label⟩

/-- What a text without a file is called. -/
def sourceLabel : String := "<source>"

/-- The lines about parsing a text. -/
def parseLog (parser : Parser) (language : Language) (source : Text) : Log :=
  rejectionLog sourceLabel (rejections parser source language.grammars)

/-- The line about the number of findings. -/
def findingsLine (findings : List Diagnostic) : LogLine :=
  ⟨.debug, .analyzer, Text.showNat findings.length ++ " diagnostics"⟩

/-- The line about a source that has no findings because it cannot be parsed. -/
def SyntaxFault.logLine (fault : SyntaxFault) : LogLine :=
  ⟨.debug, .analyzer, "Parse failure at " ++ Text.showNat fault.line ++ ":"
    ++ Text.showNat fault.column ++ ": " ++ fault.message⟩

/-- The lines about analysing a text. -/
def analysisLog (parser : Parser) (c : RuleConfig) (language : Language) (source : Text) : Log :=
  parseLog parser language source ++
    match parse parser language source with
    | .error fault => [fault.logLine]
    | .ok tree => [findingsLine (analyzeTree c (Utf8.encode source) tree)]

/-! ## Diffs and fixes -/

/-- The lines about reading a diff. -/
def readingLog (diff : Text) : Log :=
  (Patch.ignoredHeaders diff).map fun line =>
    ⟨.debug, .diff, "Ignoring malformed hunk header: " ++ String.ofList (Text.quoted line)⟩

/-- The lines about applying a diff that can be read. -/
def diffLog (before diff : Text) : Log :=
  readingLog diff ++ match applyDiff before diff with
    | .error e => [⟨.debug, .diff, e.message⟩]
    | .ok _ => []

namespace Attempt

/-- The lines about applying the diff of a fix. An empty diff is not applied. -/
def applyLog (a : Attempt) : Log :=
  match a.diff with
  | none => []
  | some diff => if diff.isEmpty then [] else diffLog a.before diff

/-- The lines about the text after a fix: it is parsed, and analysed if it can be parsed. -/
def judgeLog (a : Attempt) (parser : Parser) (c : RuleConfig) (language : Language) : Log :=
  match a.after with
  | none => []
  | some after =>
    if after = a.before then []
    else parseLog parser language after ++
      match parse parser language after with
      | .error _ => []
      | .ok _ => analysisLog parser c language after

/-- The line about a fix that is discarded. -/
def verdictLog (a : Attempt) : Log :=
  match a.verdict with
  | .ok _ => []
  | .error rejection =>
    [⟨.debug, .pipeline, "Fix for " ++ a.target.ruleId ++ " at " ++ Text.showInt a.target.start ++ " "
      ++ rejection.message⟩]

/-- The lines about a fix that has been tried. -/
def log (a : Attempt) (parser : Parser) (c : RuleConfig) (language : Language) : Log :=
  a.applyLog ++ a.judgeLog parser c language ++ a.verdictLog

end Attempt

/-- The lines about fixing a source. -/
def FixRun.log (run : FixRun) (parser : Parser) (c : RuleConfig) (language : Language)
    (source : Text) : Log :=
  analysisLog parser c language source ++ run.attempts.flatMap (·.log parser c language)

/-! ## Asking a generator -/

/-- The lines about the answer of a generator. -/
def answerLog (request : FixRequest) : Except GenerationError GeneratedFix → Log
  | .error cause =>
    [⟨.warning, .fixing, "Generation failed for " ++ request.filePath ++ ": " ++ cause.message⟩]
  | .ok fix =>
    diffLog request.source fix.diff ++
      if diffChanges request.source fix.diff then []
      else [⟨.warning, .fixing, "Generated patch for " ++ request.filePath ++ " is invalid"⟩]

/-- The line about a request that is made. -/
def ChatEndpoint.requestLine (e : ChatEndpoint) : LogLine :=
  ⟨.debug, .generator, "Requesting fix from " ++ e.url ++ " (model " ++ e.model ++ ")"⟩

/-- The lines about removing unused imports instead. -/
def fallBackLog (parser : Parser) (c : RuleConfig) (request : FixRequest) (outcome : FixOutcome) :
    Log :=
  if request.diagnostics.any (·.ruleId == Rule.unusedImport.code) then
    let run := fixRun parser c request.language request.source
    run.log parser c request.language request.source
      ++ (if run.text = request.source then []
          else diffLog request.source
            (createDiff request.source run.text defaultOldName defaultNewName defaultContext))
      ++ (if outcome.isFallback then
            [⟨.info, .fixing, "Using rule-based fix for " ++ request.filePath⟩]
          else [])
  else []

/-- The lines about a request for a fix. -/
def FixReport.log (report : FixReport) (parser : Parser) (c : RuleConfig)
    (endpoint : Option ChatEndpoint) (request : FixRequest) : Log :=
  (match report.answer with
    | none => []
    | some answer => endpoint.toList.map ChatEndpoint.requestLine ++ answerLog request answer)
  ++ match report.outcome with
    | .noIssues | .generated _ => []
    | outcome => fallBackLog parser c request outcome

/-! ## Files -/

/-- A line for people who follow the run. -/
def runnerLine (level : LogLevel) (message : String) : LogLine := ⟨level, .runner, message⟩

/-- The line at the end of a run. Time is not measured. -/
def completedLine : LogLine := runnerLine .info "Completed in 0.00s"

/-- The lines about linting a file. -/
def FileLint.log (f : FileLint) : Log :=
  let file := f.reading.file.toString
  [runnerLine .debug ("Checking " ++ file)] ++ rejectionLog file f.reading.rejected ++
    match f.reading.tree with
    | none => []
    | some _ =>
      [findingsLine f.findings,
       runnerLine .debug (file ++ ": " ++ Text.showNat f.findings.length ++ " diagnostics")]

/-- The lines about linting files. -/
def LintResult.log (r : LintResult) : Log :=
  [runnerLine .info ("Found " ++ Text.showNat r.files.length ++ " files")]
    ++ r.files.flatMap FileLint.log ++ [completedLine]

/-- The lines about the start of the work on a file. -/
def SourceReading.fixingLog (reading : SourceReading) : Log :=
  let file := reading.file.toString
  runnerLine .debug ("Fixing " ++ file) :: rejectionLog file reading.rejected

/-- The lines about fixing a file. -/
def FileFix.log (f : FileFix) (parser : Parser) (c : RuleConfig) (endpoint : Option ChatEndpoint) :
    Log :=
  let file := f.reading.file.toString
  f.reading.fixingLog ++
    match f.effort with
    | .skipped => [runnerLine .debug ("Skipping " ++ file ++ ": cannot parse")]
    | .ruleBased run => run.log parser c f.reading.language f.reading.source
    | .generated request report =>
      [findingsLine request.diagnostics] ++ report.log parser c endpoint request
        ++ (match report.outcome.diff? with
            | none => []
            | some diff => diffLog f.reading.source diff)
        ++ (if f.new?.isSome then []
            else [runnerLine .info (file ++ ": " ++ report.outcome.message)])

/-- The line about the number of files to fix. -/
def filesToFixLine (files : List Path) : LogLine :=
  runnerLine .info ("Found " ++ Text.showNat files.length ++ " files to fix")

/-- The lines about what ends the work on files. Only a generator that has been asked can give a diff that cannot
be read. -/
def FixBreak.log (endpoint : Option ChatEndpoint) : FixBreak → Log
  | .package _ => []
  | .illegible broken =>
    endpoint.toList.map ChatEndpoint.requestLine ++ readingLog broken.fix.diff

/-- The lines about fixing files, up to the one at which the work breaks off if it does. -/
def FixResult.log {σ : Type} (r : FixResult σ) (parser : Parser) (c : RuleConfig)
    (endpoint : Option ChatEndpoint) : Log :=
  r.files.flatMap (·.log parser c endpoint) ++
    match r.broken with
    | none => [completedLine]
    | some (reading, cause) =>
      reading.fixingLog ++ [findingsLine (reading.findings c)] ++ cause.log endpoint

end PatchLint
