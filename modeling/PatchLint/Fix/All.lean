import PatchLint.Diff.Apply
import PatchLint.Fix.Removal
import PatchLint.Rules.Analysis

/-!
# Fixing a source

Fixes are applied one at a time, and the source is analysed again after each. A fix is discarded,
and fixing stops, if its diff does not apply, changes nothing, breaks the source, or leaves more
missing imports than before. The number of findings at the start bounds the number of attempts.

The run keeps every attempt, so that it can be reported (`FixRun`); `fixAll` is its result.
-/

namespace PatchLint

/-- Why a fix is discarded. -/
inductive Rejection where
  | notApplied
  | breaksParsing
  | unbinds
  deriving DecidableEq, Repr

/-- What happened, in words. -/
def Rejection.message : Rejection → String
  | .notApplied => "did not apply"
  | .breaksParsing => "breaks parsing"
  | .unbinds => "removes a used binding"

/-- A source that is being fixed, with its findings. -/
structure Draft where
  text : Text
  findings : List Diagnostic

/-- A fix that has been tried: the text it was tried on, the finding it is for, the diff if there is
one, the text after it if the diff applies, and whether it was kept. -/
structure Attempt where
  before : Text
  target : Diagnostic
  diff : Option Text
  after : Option Text
  verdict : Except Rejection (List Diagnostic)

/-- The number of missing imports among some findings. -/
def missingCount (ds : List Diagnostic) : Nat :=
  ds.countP (·.ruleId == Rule.missingImport.code)

/-- The finding that is fixed next. -/
def fixTarget? (ds : List Diagnostic) : Option Diagnostic :=
  ds.find? fun d => d.ruleId == Rule.unusedImport.code && d.quickFixable

/-- Judges the text after a fix; a text that is kept is given with its findings. -/
def judge (parser : Parser) (c : RuleConfig) (language : Language) (d : Draft)
    (after : Option Text) : Except Rejection (List Diagnostic) :=
  match after with
  | none => .error .notApplied
  | some patched =>
    if patched = d.text then .error .notApplied
    else match parse parser language patched with
      | .error _ => .error .breaksParsing
      | .ok root =>
        let findings := analyzeTree c (Utf8.encode patched) root
        if missingCount d.findings < missingCount findings then .error .unbinds
        else .ok findings

/-- Tries the fix for a finding. -/
def attempt (parser : Parser) (c : RuleConfig) (language : Language) (d : Draft)
    (target : Diagnostic) : Attempt :=
  let diff := fixFor? d.text target
  let after := diff.bind (applyDiff? d.text)
  ⟨d.text, target, diff, after, judge parser c language d after⟩

/-- The attempts that were made, and the text at the end. -/
structure FixRun where
  attempts : List Attempt
  text : Text

/-- Fixes a draft with at most `count` attempts. -/
def fixRunFrom (parser : Parser) (c : RuleConfig) (language : Language) : Nat → Draft → FixRun
  | 0, d => ⟨[], d.text⟩
  | count + 1, d =>
    match fixTarget? d.findings with
    | none => ⟨[], d.text⟩
    | some target =>
      let a := attempt parser c language d target
      match a.verdict, a.after with
      | .ok findings, some patched =>
        let run := fixRunFrom parser c language count ⟨patched, findings⟩
        ⟨a :: run.attempts, run.text⟩
      | _, _ => ⟨[a], d.text⟩

/-- Fixes a source. -/
def fixRun (parser : Parser) (c : RuleConfig) (language : Language) (source : Text) : FixRun :=
  let findings := analyze parser c language source
  fixRunFrom parser c language findings.length ⟨source, findings⟩

/-- The source after all fixes. -/
def fixAll (parser : Parser) (c : RuleConfig) (language : Language) (source : Text) : Text :=
  (fixRun parser c language source).text

end PatchLint
