/-!
# Rules and severities

The four rules, the severities they can report with, and the part of the configuration that governs
them. A rule whose severity is `off` does not run.
-/

namespace PatchLint

/-- How serious a finding is. `off` occurs only in configurations. -/
inductive Severity where
  | info
  | warning
  | error
  | off
  deriving DecidableEq, Repr

namespace Severity

/-- All severities, in the order in which they are listed to the user. -/
def all : List Severity := [.info, .warning, .error, .off]

/-- The name of a severity. -/
def name : Severity → String
  | .info => "info"
  | .warning => "warning"
  | .error => "error"
  | .off => "off"

/-- The name of a severity in capitals. -/
def title : Severity → String
  | .info => "INFO"
  | .warning => "WARNING"
  | .error => "ERROR"
  | .off => "OFF"

/-- The severity of a name. -/
def ofName? (name : String) : Option Severity := all.find? (·.name == name)

theorem ofName?_name (s : Severity) : ofName? s.name = some s := by cases s <;> decide

end Severity

/-- A rule that sources are checked against. -/
inductive Rule where
  | unusedImport
  | missingImport
  | nullAccess
  | missingAwait
  deriving DecidableEq, Repr

namespace Rule

/-- All rules, in the order in which they run. -/
def all : List Rule := [.unusedImport, .missingImport, .nullAccess, .missingAwait]

/-- The code of a rule. -/
def code : Rule → String
  | .unusedImport => "R1"
  | .missingImport => "R2"
  | .nullAccess => "R3"
  | .missingAwait => "R4"

/-- The rule of a code. -/
def ofCode? (code : String) : Option Rule := all.find? (·.code == code)

/-- The severity of a rule unless it is configured otherwise. -/
def defaultSeverity : Rule → Severity
  | .unusedImport => .info
  | .missingImport => .error
  | .nullAccess => .warning
  | .missingAwait => .warning

/-- Whether the findings of a rule can be fixed by the rule alone. -/
def quickFixable : Rule → Bool
  | .unusedImport => true
  | _ => false

theorem ofCode?_code (r : Rule) : ofCode? r.code = some r := by cases r <;> decide

theorem mem_all (r : Rule) : r ∈ all := by cases r <;> decide

end Rule

/-- How the rules are configured: the severity of each, further names that count as defined, and
further names whose members may be read. -/
structure RuleConfig where
  severity : Rule → Severity := Rule.defaultSeverity
  globals : List String := []
  allow : List String := []

/-- Whether a rule runs. -/
def RuleConfig.enables (c : RuleConfig) (r : Rule) : Bool := c.severity r != .off

/-- The rules that run, in their order. -/
def RuleConfig.enabledRules (c : RuleConfig) : List Rule := Rule.all.filter c.enables

end PatchLint
