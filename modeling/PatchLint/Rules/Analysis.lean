import PatchLint.Rules.Check
import PatchLint.Tree.Parse

/-!
# Analysis

One walk over a tree fills the scope and lets every enabled rule look at each node; after the walk
the rules look at the finished scope. A source that cannot be parsed has no findings.
-/

namespace PatchLint

/-- The scope so far and the findings so far. -/
structure Survey where
  scope : Scope := {}
  found : List Diagnostic := []

/-- Takes one node into account: first it is recorded, then the rules look at it. -/
def Survey.step (c : RuleConfig) (source : List UInt8) (s : Survey) (v : Visit) : Survey :=
  let scope := observe source s.scope v
  { scope := scope
    found := s.found ++ c.enabledRules.flatMap fun r => r.visit c source scope v }

/-- The findings in a tree. -/
def analyzeTree (c : RuleConfig) (source : List UInt8) (root : Node) : List Diagnostic :=
  let s := (walk root).foldl (Survey.step c source) {}
  s.found ++ c.enabledRules.flatMap fun r => r.finish c s.scope

/-- The findings in a source. -/
def analyze (parser : Parser) (c : RuleConfig) (language : Language) (source : Text) :
    List Diagnostic :=
  match parse parser language source with
  | .error _ => []
  | .ok root => analyzeTree c (Utf8.encode source) root

end PatchLint
