import PatchLint.Fix.Validated
import PatchLint.Proofs.Diff.Roundtrip

/-!
# Falling back to the rules

When a generator is of no use, the fix is the one that the rules make, written as a diff. Nothing is
lost on this way:

* `any_unusedImport_of_fixAll_ne` — the rules change a source only if there is a finding about an
  unused import
* `ruleBasedDiff?_eq` — so there is a diff exactly if the rules change the source
* `applied_fallBack` — and applying the diff gives what the rules make of the source
-/

namespace PatchLint

variable {parser : Parser} {c : RuleConfig}

/-! ## Changes by the rules -/

/-- **Only unused imports are fixed.** A draft without a finding about one stays as it is. -/
theorem fixRunFrom_text {language : Language} {d : Draft} (h : fixTarget? d.findings = none) :
    ∀ count, (fixRunFrom parser c language count d).text = d.text
  | 0 => rfl
  | count + 1 => by rw [fixRunFrom, h]

theorem any_unusedImport_of_fixTarget? {ds : List Diagnostic} {target : Diagnostic}
    (h : fixTarget? ds = some target) : ds.any (·.ruleId == Rule.unusedImport.code) = true := by
  have hrule := List.find?_some h
  rw [Bool.and_eq_true] at hrule
  exact List.any_eq_true.mpr ⟨target, List.mem_of_find?_eq_some h, hrule.1⟩

theorem any_unusedImport_of_fixAll_ne {language : Language} {source : Text}
    (h : fixAll parser c language source ≠ source) :
    (analyze parser c language source).any (·.ruleId == Rule.unusedImport.code) = true := by
  cases htarget : fixTarget? (analyze parser c language source) with
  | none => exact absurd (fixRunFrom_text (d := ⟨source, _⟩) htarget _) h
  | some target => exact any_unusedImport_of_fixTarget? htarget

/-! ## The diff of the rules -/

theorem applyDiff?_createDiff_default {before after : Text} (h : before ≠ after) :
    applyDiff? before (createDiff before after defaultOldName defaultNewName defaultContext)
      = some after :=
  applyDiff?_createDiff_of_ne defaultContext h (by decide) (by decide)

theorem diffChanges_createDiff_default {before after : Text} (h : before ≠ after) :
    diffChanges before (createDiff before after defaultOldName defaultNewName defaultContext)
      = true := by
  rw [diffChanges, applyDiff?_createDiff_default h]
  exact bne_iff_ne.mpr h.symm

/-- **There is a diff exactly if the rules change the source,** for a request with the findings of its
own source. -/
theorem ruleBasedDiff?_eq {request : FixRequest}
    (h : request.diagnostics = analyze parser c request.language request.source) :
    ruleBasedDiff? parser c request
      = let fixed := fixAll parser c request.language request.source
        if fixed = request.source then none
        else some (createDiff request.source fixed defaultOldName defaultNewName defaultContext) := by
  unfold ruleBasedDiff?
  dsimp only
  by_cases hfixed : fixAll parser c request.language request.source = request.source
  · rw [if_pos hfixed, if_pos hfixed, ite_self]
  · -- the test for an unused import does not keep a change back
    have hany := any_unusedImport_of_fixAll_ne hfixed
    rw [← h] at hany
    rw [if_pos hany, if_neg hfixed, if_neg hfixed,
      if_pos (diffChanges_createDiff_default fun e => hfixed e.symm)]

/-- **Applying the fix after a failure gives what the rules make of the source.** A failure by itself
brings no diff. -/
theorem applied_fallBack {request : FixRequest} {failure : FixOutcome}
    (h : request.diagnostics = analyze parser c request.language request.source)
    (hfailure : failure.diff? = none) :
    (fallBack parser c request failure).diff?.bind (applyDiff? request.source)
      = let fixed := fixAll parser c request.language request.source
        if fixed = request.source then none else some fixed := by
  rw [fallBack, ruleBasedDiff?_eq h]
  dsimp only
  by_cases hfixed : fixAll parser c request.language request.source = request.source
  · rw [if_pos hfixed, if_pos hfixed]
    dsimp only
    rw [hfailure]
    rfl
  · rw [if_neg hfixed, if_neg hfixed]
    exact applyDiff?_createDiff_default fun e => hfixed e.symm

/-! ## Answers of no use -/

/-- Whether an answer of a generator is of no use: it is an error, or its diff can be read and does not
change the source. -/
def IsUseless (source : Text) (answer : Except GenerationError GeneratedFix) : Prop :=
  ∀ fix, answer = .ok fix → ifLegible fix.diff (diffChanges source fix.diff) = .ok false

/-- **Without a useful answer, a request ends with what the rules make of the source.** -/
theorem applied_validatedFix {σ : Type} {generator : Option (Generator σ)} {request : FixRequest}
    {state : σ} {report : FixReport}
    (h : request.diagnostics = analyze parser c request.language request.source)
    (hreport : (validatedFix parser c generator request state).1 = .ok report)
    (huseless : ∀ answer ∈ report.answer, IsUseless request.source answer) :
    report.outcome.diff?.bind (applyDiff? request.source)
      = let fixed := fixAll parser c request.language request.source
        if fixed = request.source then none else some fixed := by
  unfold validatedFix at hreport
  by_cases hempty : request.diagnostics.isEmpty = true
  · -- without findings the rules have nothing to fix either
    rw [if_pos hempty] at hreport
    cases hreport
    have hfixed : fixAll parser c request.language request.source = request.source := by
      refine Decidable.byContradiction fun hne => ?_
      have hany := any_unusedImport_of_fixAll_ne hne
      rw [← h, List.isEmpty_iff.mp hempty] at hany
      cases hany
    dsimp only
    rw [if_pos hfixed]
    rfl
  · rw [if_neg hempty] at hreport
    cases generator with
    | none =>
      cases hreport
      exact applied_fallBack h rfl
    | some ask =>
      dsimp only at hreport
      cases hanswer : (ask request state).1 with
      | error cause =>
        rw [hanswer] at hreport
        cases hreport
        exact applied_fallBack h rfl
      | ok fix =>
        rw [hanswer, judgeAnswer] at hreport
        cases hchanges : ifLegible fix.diff (diffChanges request.source fix.diff) with
        | error fault =>
          rw [hchanges] at hreport
          cases hreport
        | ok changes =>
          rw [hchanges] at hreport
          cases changes with
          | false =>
            cases hreport
            exact applied_fallBack h rfl
          | true =>
            cases hreport
            have hno := huseless _ rfl fix rfl
            rw [hchanges] at hno
            cases hno

end PatchLint
