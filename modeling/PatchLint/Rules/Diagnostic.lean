import PatchLint.Json.Basic
import PatchLint.Rules.Basic

/-!
# Diagnostics

A diagnostic is one finding: the code of a rule, a message and a span of bytes.
-/

namespace PatchLint

/-- A finding. -/
structure Diagnostic where
  ruleId : String
  message : String
  start : Int
  stop : Int
  severity : Severity
  quickFixable : Bool
  deriving DecidableEq, Repr

/-- The members of a finding in JSON. -/
def Diagnostic.fields (d : Diagnostic) : List (String × Json) :=
  [("ruleId", .str d.ruleId), ("message", .str d.message), ("start", .int d.start),
   ("end", .int d.stop), ("severity", .str d.severity.name), ("quickFixable", .bool d.quickFixable)]

/-- A finding of a rule, with the severity that is configured for it. -/
def RuleConfig.diagnostic (c : RuleConfig) (r : Rule) (message : String) (start stop : Nat) :
    Diagnostic where
  ruleId := r.code
  message := message
  start := start
  stop := stop
  severity := c.severity r
  quickFixable := r.quickFixable

end PatchLint
