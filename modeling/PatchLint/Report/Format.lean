import PatchLint.Config.Basic
import PatchLint.Json.Printer
import PatchLint.Report.Collection

/-!
# Printing findings

Findings as text, one line each with the source line and a caret below it, or as one JSON list; and
the summary that counts them.
-/

namespace PatchLint

/-! ## Text -/

/-- The start of a line about a place in a file. -/
def placeLabel (file : String) (p : Place) : String :=
  file ++ ":" ++ Text.showInt p.line ++ ":" ++ Text.showInt p.column ++ ": "

/-- The source line with a caret under a column, and an empty line. -/
def excerpt (line : Text) (column : Int) : List String :=
  ["    " ++ String.ofList line,
   "    " ++ String.ofList (Text.repeated ' ' (column - 1).toNat) ++ "^",
   ""]

/-- The excerpt, if it is wanted and there is one. -/
def excerptIf (wanted : Bool) (line : Option Text) (column : Int) : List String :=
  match line with
  | some l => if wanted then excerpt l column else []
  | none => []

/-- The lines about a syntax error. -/
def FileSyntaxError.textLines (showSource : Bool) (e : FileSyntaxError) : List String :=
  (placeLabel e.file e.place ++ "ERROR [syntax] " ++ e.message) ::
    excerptIf showSource e.sourceLine e.place.column

/-- The lines about a finding. -/
def FileDiagnostic.textLines (showSource : Bool) (d : FileDiagnostic) : List String :=
  (placeLabel d.file d.place ++ d.diagnostic.severity.title ++ " [" ++ d.diagnostic.ruleId ++ "] "
      ++ d.diagnostic.message ++ (if d.diagnostic.quickFixable then " (fixable)" else "")) ::
    excerptIf showSource d.sourceLine d.place.column

/-- All findings as text. -/
def Collection.toText (c : Collection) (showSource : Bool) : String :=
  joinStrings "\n" (c.sortedErrors.flatMap (·.textLines showSource)
    ++ c.sorted.flatMap (·.textLines showSource))

/-! ## JSON -/

/-- A number that may be absent. -/
def optionalInt : Option Int → Json
  | none => .null
  | some n => .int n

/-- A text that may be absent. -/
def optionalLine : Option Text → Json
  | none => .null
  | some t => .str (String.ofList t)

/-- A syntax error in JSON. -/
def FileSyntaxError.toJson (e : FileSyntaxError) : Json :=
  .obj [("file", .str e.file), ("line", .int e.place.line), ("column", .int e.place.column),
    ("ruleId", .str "syntax"), ("severity", .str "error"), ("message", .str e.message)]

/-- A finding in JSON. -/
def FileDiagnostic.toJson (showSource : Bool) (d : FileDiagnostic) : Json :=
  .obj ([("file", .str d.file), ("line", .int d.place.line), ("column", .int d.place.column),
      ("end_line", optionalInt d.place.endLine), ("end_column", optionalInt d.place.endColumn)]
    ++ d.diagnostic.fields
    ++ (if showSource then [("source_line", optionalLine d.sourceLine)] else []))

/-- All findings as a JSON value. -/
def Collection.toJson (c : Collection) (showSource : Bool) : Json :=
  .arr (c.sortedErrors.map (·.toJson) ++ c.sorted.map (·.toJson showSource))

/-! ## Both -/

/-- All findings in the configured format. -/
def Collection.format (c : Collection) (config : Config) : String :=
  match config.outputFormat with
  | .json => (c.toJson config.showSource).render
  | .text => c.toText config.showSource

/-- A count with its noun, unless it is zero. -/
def countPart (count : Nat) (noun : String) : Option String :=
  if count = 0 then none
  else some (Text.showNat count ++ " " ++ noun ++ (if count = 1 then "" else "s"))

/-- How many findings of each kind there are. -/
def Collection.summary (c : Collection) : String :=
  let parts := [countPart c.syntaxErrors.length "syntax error", countPart (c.count .error) "error",
    countPart (c.count .warning) "warning", countPart (c.count .info) "info"].filterMap id
  if parts.isEmpty then "No issues found." else "Found " ++ joinStrings ", " parts ++ "."

/-- The whole report: the findings, the summary and the number of files. -/
def Collection.report (c : Collection) (config : Config) (filesChecked : Int) : String :=
  let output := c.format config
  let files := "Checked " ++ Text.showInt filesChecked ++ " file"
    ++ (if filesChecked = 1 then "" else "s") ++ "."
  joinStrings "\n" ((if output.isEmpty then [] else [output]) ++ [c.summary, files])

end PatchLint
