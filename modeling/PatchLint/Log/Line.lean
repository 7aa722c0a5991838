import PatchLint.Text.Basic

/-!
# Log lines

A log line has a level, the component that writes it, and a message. A run shows the lines from a
level on.
-/

namespace PatchLint

/-- How much a log line matters. -/
inductive LogLevel where
  | debug
  | info
  | warning
  deriving DecidableEq, Repr

/-- The position of a level, from the least on. -/
def LogLevel.rank : LogLevel → Nat
  | .debug => 0
  | .info => 1
  | .warning => 2

/-- The components that write log lines. -/
inductive Component where
  | scanner
  | parser
  | analyzer
  | diff
  | pipeline
  | generator
  | fixing
  | runner
  deriving DecidableEq, Repr

/-- The name of a component. -/
def Component.name : Component → String
  | .scanner => "codefixer.scanner"
  | .parser => "codefixer.parser"
  | .analyzer => "codefixer.analyzer"
  | .diff => "codefixer.diff"
  | .pipeline => "codefixer.fixers.pipeline"
  | .generator => "codefixer.generator"
  | .fixing => "codefixer.fixing"
  | .runner => "codefixer.runner"

/-- A log line. -/
structure LogLine where
  level : LogLevel
  component : Component
  message : String
  deriving DecidableEq, Repr

/-- Log lines in the order in which they are written. -/
abbrev Log := List LogLine

/-- The text of a log line. -/
def LogLine.render (l : LogLine) : String := l.component.name ++ ": " ++ l.message ++ "\n"

/-- The text of the lines from a level on. -/
def Log.render (threshold : LogLevel) (log : Log) : String :=
  String.join ((log.filter fun l => threshold.rank ≤ l.level.rank).map LogLine.render)

end PatchLint
