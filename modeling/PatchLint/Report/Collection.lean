import PatchLint.Rules.Diagnostic
import PatchLint.Tree.Location

/-!
# Collected findings

Findings and syntax errors of several files. Findings are shown by file, line and column, syntax
errors by file; what ties keeps the order in which it was added.
-/

namespace PatchLint

/-- The place of a finding, from one line and column to another. -/
structure Place where
  line : Int
  column : Int
  endLine : Option Int := none
  endColumn : Option Int := none
  deriving DecidableEq, Repr

/-- A finding in a file. -/
structure FileDiagnostic where
  file : String
  diagnostic : Diagnostic
  place : Place
  sourceLine : Option Text := none
  deriving DecidableEq, Repr

/-- A file that cannot be parsed. -/
structure FileSyntaxError where
  file : String
  place : Place
  message : String
  sourceLine : Option Text := none
  deriving DecidableEq, Repr

/-- Puts a finding into its file: the places of both ends, and the line it starts on without carriage
returns at its end. -/
def locateIn (file : String) (source : List UInt8) (d : Diagnostic) : FileDiagnostic :=
  let start := Location.ofOffset source d.start
  let stop := Location.ofOffset source d.stop
  { file := file
    diagnostic := d
    place := ⟨start.line, start.column, some stop.line, some stop.column⟩
    sourceLine := (sourceLine? source start.line).map (Text.trimEnd (· = '\r')) }

/-- Findings and syntax errors, in the order in which they were added. -/
structure Collection where
  diagnostics : List FileDiagnostic := []
  syntaxErrors : List FileSyntaxError := []

namespace Collection

/-- Adds a finding. -/
def add (c : Collection) (d : FileDiagnostic) : Collection :=
  { c with diagnostics := c.diagnostics ++ [d] }

/-- Adds several findings. -/
def addAll (c : Collection) (ds : List FileDiagnostic) : Collection :=
  { c with diagnostics := c.diagnostics ++ ds }

/-- Adds a syntax error. -/
def addSyntaxError (c : Collection) (e : FileSyntaxError) : Collection :=
  { c with syntaxErrors := c.syntaxErrors ++ [e] }

/-- Whether a finding may stand before another one: by file, then by line, then by column. -/
def before (a b : FileDiagnostic) : Bool :=
  if a.file = b.file then
    if a.place.line = b.place.line then a.place.column ≤ b.place.column
    else a.place.line < b.place.line
  else decide (a.file < b.file)

/-- The findings in the order in which they are shown. -/
def sorted (c : Collection) : List FileDiagnostic := c.diagnostics.mergeSort before

/-- The syntax errors in the order in which they are shown. -/
def sortedErrors (c : Collection) : List FileSyntaxError :=
  c.syntaxErrors.mergeSort fun a b => decide (a.file ≤ b.file)

/-- The number of findings of a severity. -/
def count (c : Collection) (s : Severity) : Nat :=
  c.diagnostics.countP (·.diagnostic.severity == s)

/-- Whether there is a syntax error or a finding that is an error. -/
def hasErrors (c : Collection) : Bool := !c.syntaxErrors.isEmpty || 0 < c.count .error

end Collection

end PatchLint
