import PatchLint.Fix.All
import PatchLint.Generator.Basic

/-!
# Validated fixes

A request for a fix goes to the generator, if there is one. A diff that applies and changes the
source is the answer. If the generator fails or its diff is of no use, the unused imports are removed
instead; if that changes nothing, the failure is the answer. A diff of the generator that cannot be read,
because a number in it is too long, is not caught and ends the request (`IllegibleFix`); own diffs have no
such numbers.
-/

namespace PatchLint

/-- How a request for a fix ends. -/
inductive FixOutcome where
  | noIssues
  | generated (fix : GeneratedFix)
  | ruleBased (diff : Text)
  /-- The generator failed, or there is none. -/
  | generationFailed (cause : Option GenerationError)
  | validationFailed
  deriving DecidableEq, Repr

namespace FixOutcome

/-- The name of the way a request ended. -/
def status : FixOutcome → String
  | .noIssues => "no_issues"
  | .generated _ | .ruleBased _ => "fixed"
  | .generationFailed _ => "generation_failed"
  | .validationFailed => "validation_failed"

/-- The diff of a fix. -/
def diff? : FixOutcome → Option Text
  | .generated fix => some fix.diff
  | .ruleBased diff => some diff
  | _ => none

/-- Whether the fix does not come from the generator. -/
def isFallback : FixOutcome → Bool
  | .ruleBased _ => true
  | _ => false

/-- Whether there is a fix. -/
def isFixed (o : FixOutcome) : Bool := o.diff?.isSome

/-- The reason given with a fix. -/
def rationale : FixOutcome → String
  | .generated fix => fix.rationale
  | .ruleBased _ => "Removed unused import lines."
  | _ => ""

/-- The risks given with a fix. -/
def risks : FixOutcome → List String
  | .generated fix => fix.risks
  | _ => []

/-- What went wrong. -/
def error? : FixOutcome → Option String
  | .generationFailed none => some "No generator configured."
  | .generationFailed (some cause) => some cause.message
  | .validationFailed => some "Generated patch is invalid."
  | _ => none

/-- The headline of an outcome. -/
def headline : FixOutcome → String
  | .noIssues => "No issues to fix."
  | .generated _ => "Fix generated."
  | .ruleBased _ => "Rule-based fix generated."
  | .generationFailed _ => "Fix generation failed."
  | .validationFailed => "Fix was generated but failed validation."

/-- The message to the user: the headline, and what went wrong. -/
def message (o : FixOutcome) : String :=
  match o.error? with
  | none => o.headline
  | some error => if error.isEmpty then o.headline else o.headline ++ " " ++ error

end FixOutcome

/-- The diff that removes the unused imports, if some finding is about one and the diff changes the
source. -/
def ruleBasedDiff? (parser : Parser) (c : RuleConfig) (request : FixRequest) : Option Text :=
  if request.diagnostics.any (·.ruleId == Rule.unusedImport.code) then
    let fixed := fixAll parser c request.language request.source
    if fixed = request.source then none
    else
      let diff := createDiff request.source fixed defaultOldName defaultNewName defaultContext
      if diffChanges request.source diff then some diff else none
  else none

/-- The outcome after a failure of the generator. -/
def fallBack (parser : Parser) (c : RuleConfig) (request : FixRequest) (failure : FixOutcome) :
    FixOutcome :=
  match ruleBasedDiff? parser c request with
  | some diff => .ruleBased diff
  | none => failure

/-- A fix of a generator whose diff cannot be read. -/
structure IllegibleFix where
  fix : GeneratedFix
  fault : OverlongNumber
  deriving DecidableEq, Repr

/-- The outcome for what a generator has answered. -/
def judgeAnswer (parser : Parser) (c : RuleConfig) (request : FixRequest) :
    Except GenerationError GeneratedFix → Except IllegibleFix FixOutcome
  | .error cause => .ok (fallBack parser c request (.generationFailed (some cause)))
  | .ok fix =>
    match ifLegible fix.diff (diffChanges request.source fix.diff) with
    | .error fault => .error ⟨fix, fault⟩
    | .ok true => .ok (.generated fix)
    | .ok false => .ok (fallBack parser c request .validationFailed)

/-- An outcome together with what the generator has answered, if it was asked. -/
structure FixReport where
  outcome : FixOutcome
  answer : Option (Except GenerationError GeneratedFix)

/-- Answers a request for a fix. The generator is asked only if there is something to fix. -/
def validatedFix {σ : Type} (parser : Parser) (c : RuleConfig) (generator : Option (Generator σ))
    (request : FixRequest) (state : σ) : Except IllegibleFix FixReport × σ :=
  if request.diagnostics.isEmpty then (.ok ⟨.noIssues, none⟩, state)
  else match generator with
    | none => (.ok ⟨fallBack parser c request (.generationFailed none), none⟩, state)
    | some ask =>
      let (answer, state) := ask request state
      ((judgeAnswer parser c request answer).map (⟨·, some answer⟩), state)

end PatchLint
