import PatchLint.Proofs.Diff.Spellings
import PatchLint.Proofs.Fix.Fallback
import PatchLint.Proofs.Fix.KeptRun
import PatchLint.Proofs.Fix.OwnDiffs

/-!
# How a request for a fix ends

A request ends in one of five ways, and what the generator answers, the findings of the request and the
fixes of the rules decide in which (`EndsAs`). The findings of a request are taken as they are given:
they need not be those of its source. It does not end in any of them if the generator answers with a diff
in which a number is too long to be converted.

* `ruleBasedDiff?_eq_some_iff` — when the rules have a diff to offer, and what it does
* `validatedFix_eq_error_iff` — when a request has no outcome
* `endsAs_validatedFix` — an outcome is the one that it has to be
* `validatedFix_classifies` — so its status tells what has happened
-/

namespace PatchLint

variable {parser : Parser} {c : RuleConfig}

/-- Whether a generator has answered with a diff that can be read and changes the source. -/
def IsHelpful (source : Text) (answer : Option (Except GenerationError GeneratedFix)) : Prop :=
  ∃ fix, answer = some (.ok fix) ∧ ifLegible fix.diff (diffChanges source fix.diff) = .ok true

/-- Whether the rules can stand in: a finding is about an unused import, and the rules change the
source. -/
def IsRemovable (parser : Parser) (c : RuleConfig) (request : FixRequest) : Prop :=
  (∃ d ∈ request.diagnostics, d.ruleId = Rule.unusedImport.code) ∧
    fixAll parser c request.language request.source ≠ request.source

/-- How a request has to end if it has an outcome, given what the generator answers to it; without a
generator there is no answer. -/
inductive EndsAs (parser : Parser) (c : RuleConfig) (request : FixRequest)
    (answer : Option (Except GenerationError GeneratedFix)) : FixOutcome → Prop
  | noIssues : request.diagnostics = [] → EndsAs parser c request answer .noIssues
  | generated {fix : GeneratedFix} : request.diagnostics ≠ [] → answer = some (.ok fix) →
    ifLegible fix.diff (diffChanges request.source fix.diff) = .ok true →
    EndsAs parser c request answer (.generated fix)
  | ruleBased {diff : Text} : request.diagnostics ≠ [] → ¬IsHelpful request.source answer →
    IsRemovable parser c request →
    diff = createDiff request.source (fixAll parser c request.language request.source)
      defaultOldName defaultNewName defaultContext →
    EndsAs parser c request answer (.ruleBased diff)
  | validationFailed {fix : GeneratedFix} : request.diagnostics ≠ [] →
    ¬IsHelpful request.source answer → ¬IsRemovable parser c request → answer = some (.ok fix) →
    EndsAs parser c request answer .validationFailed
  | generationFailed (cause : Option GenerationError) : request.diagnostics ≠ [] →
    ¬IsHelpful request.source answer → ¬IsRemovable parser c request →
    answer = cause.map .error → EndsAs parser c request answer (.generationFailed cause)

/-! ## The diff of the rules -/

theorem diffChanges_iff {source diff : Text} :
    diffChanges source diff = true ↔ ∃ patched, applyDiff? source diff = some patched ∧
      patched ≠ source := by
  rw [diffChanges]
  cases applyDiff? source diff with
  | none => simp
  | some patched => simp

/-- **The rules have a diff to offer exactly if they can stand in,** and it is the diff to what they make
of the source. -/
theorem ruleBasedDiff?_eq_some_iff {request : FixRequest} {diff : Text} :
    ruleBasedDiff? parser c request = some diff ↔
      IsRemovable parser c request ∧
        diff = createDiff request.source (fixAll parser c request.language request.source)
          defaultOldName defaultNewName defaultContext := by
  have hany : request.diagnostics.any (·.ruleId == Rule.unusedImport.code) = true
      ↔ ∃ d ∈ request.diagnostics, d.ruleId = Rule.unusedImport.code := by
    simp
  unfold ruleBasedDiff?
  by_cases hunused : ∃ d ∈ request.diagnostics, d.ruleId = Rule.unusedImport.code
  · rw [if_pos (hany.mpr hunused)]
    dsimp only
    by_cases hfixed : fixAll parser c request.language request.source = request.source
    · rw [if_pos hfixed]
      constructor
      · intro h
        cases h
      · intro h
        exact absurd hfixed h.1.2
    · -- the diff is checked once more, but the check cannot fail
      rw [if_neg hfixed, if_pos (diffChanges_createDiff_default fun e => hfixed e.symm)]
      constructor
      · intro h
        exact ⟨⟨hunused, hfixed⟩, (Option.some.inj h).symm⟩
      · rintro ⟨-, rfl⟩
        rfl
  · rw [if_neg fun h => hunused (hany.mp h)]
    constructor
    · intro h
      cases h
    · intro h
      exact absurd h.1.1 hunused

theorem ruleBasedDiff?_eq_none_iff {request : FixRequest} :
    ruleBasedDiff? parser c request = none ↔ ¬IsRemovable parser c request := by
  constructor
  · intro hnone hremovable
    have hsome := ruleBasedDiff?_eq_some_iff.mpr ⟨hremovable, rfl⟩
    rw [hnone] at hsome
    cases hsome
  · intro hnot
    cases hdiff : ruleBasedDiff? parser c request with
    | none => rfl
    | some diff => exact absurd (ruleBasedDiff?_eq_some_iff.mp hdiff).1 hnot

/-! ## The outcome -/

/-- After a failure the rules stand in if they can; if not, the failure is the outcome. -/
theorem endsAs_fallBack {request : FixRequest}
    {answer : Option (Except GenerationError GeneratedFix)} {failure : FixOutcome}
    (hissues : request.diagnostics ≠ []) (huseless : ¬IsHelpful request.source answer)
    (hfailure : ¬IsRemovable parser c request → EndsAs parser c request answer failure) :
    EndsAs parser c request answer (fallBack parser c request failure) := by
  rw [fallBack]
  cases hdiff : ruleBasedDiff? parser c request with
  | none => exact hfailure (ruleBasedDiff?_eq_none_iff.mp hdiff)
  | some diff =>
    obtain ⟨hremovable, rfl⟩ := ruleBasedDiff?_eq_some_iff.mp hdiff
    exact .ruleBased hissues huseless hremovable rfl

theorem endsAs_judgeAnswer {request : FixRequest} {answer : Except GenerationError GeneratedFix}
    {outcome : FixOutcome} (hissues : request.diagnostics ≠ [])
    (houtcome : judgeAnswer parser c request answer = .ok outcome) :
    EndsAs parser c request (some answer) outcome := by
  cases answer with
  | error cause =>
    have huseless : ¬IsHelpful request.source (some (.error cause)) := by
      rintro ⟨fix, hfix, -⟩
      cases hfix
    cases houtcome
    exact endsAs_fallBack hissues huseless fun hnot =>
      .generationFailed (some cause) hissues huseless hnot rfl
  | ok fix =>
    rw [judgeAnswer] at houtcome
    cases hchanges : ifLegible fix.diff (diffChanges request.source fix.diff) with
    | error fault =>
      rw [hchanges] at houtcome
      cases houtcome
    | ok changes =>
      rw [hchanges] at houtcome
      cases changes with
      | true =>
        cases houtcome
        exact .generated hissues rfl hchanges
      | false =>
        have huseless : ¬IsHelpful request.source (some (.ok fix)) := by
          rintro ⟨fix', hfix, hchanges'⟩
          cases hfix
          rw [hchanges] at hchanges'
          cases hchanges'
        cases houtcome
        exact endsAs_fallBack hissues huseless fun hnot => .validationFailed hissues huseless hnot rfl

/-- An answer is not judged exactly if its diff holds a number that is too long. -/
theorem judgeAnswer_eq_error_iff {request : FixRequest}
    {answer : Except GenerationError GeneratedFix} {broken : IllegibleFix} :
    judgeAnswer parser c request answer = .error broken ↔
      answer = .ok broken.fix ∧ overlongNumber? broken.fix.diff = some broken.fault := by
  cases answer with
  | error cause => simp [judgeAnswer]
  | ok fix =>
    obtain ⟨fix', fault'⟩ := broken
    rw [judgeAnswer, Except.ok.injEq]
    cases hchanges : ifLegible fix.diff (diffChanges request.source fix.diff) with
    | error fault =>
      have hfault := ifLegible_eq_error_iff.mp hchanges
      constructor
      · intro h
        cases h
        exact ⟨rfl, hfault⟩
      · rintro ⟨rfl, hfault'⟩
        rw [hfault] at hfault'
        cases hfault'
        rfl
    | ok changes =>
      have hlegible := (ifLegible_eq_ok_iff.mp hchanges).1
      constructor
      · intro h
        cases changes with
        | true => cases h
        | false => cases h
      · rintro ⟨rfl, hfault'⟩
        rw [hlegible] at hfault'
        cases hfault'

/-- **A request has no outcome exactly if the generator is asked and answers with a diff in which a
number is too long.** -/
theorem validatedFix_eq_error_iff {σ : Type} {generator : Option (Generator σ)}
    {request : FixRequest} {state : σ} {broken : IllegibleFix} :
    (validatedFix parser c generator request state).1 = .error broken ↔
      request.diagnostics ≠ [] ∧
        (generator.map fun ask => (ask request state).1) = some (.ok broken.fix) ∧
        overlongNumber? broken.fix.diff = some broken.fault := by
  unfold validatedFix
  by_cases hempty : request.diagnostics = []
  · rw [if_pos (List.isEmpty_iff.mpr hempty)]
    simp [hempty]
  · rw [if_neg fun h => hempty (List.isEmpty_iff.mp h)]
    cases generator with
    | none => simp
    | some ask =>
      have hjudge : judgeAnswer parser c request (ask request state).1 = .error broken ↔ _ :=
        judgeAnswer_eq_error_iff
      rw [and_iff_right hempty, Option.map_some, Option.some_inj, ← hjudge]
      dsimp only
      cases judgeAnswer parser c request (ask request state).1 with
      | error broken' =>
        show (Except.error broken' : Except IllegibleFix FixReport) = _ ↔ _
        rw [Except.error.injEq, Except.error.injEq]
      | ok outcome =>
        constructor
        · intro h
          cases h
        · intro h
          cases h

/-- **An outcome of a request is the one that it has to be.** -/
theorem endsAs_validatedFix {σ : Type} {generator : Option (Generator σ)} {request : FixRequest}
    {state : σ} {report : FixReport}
    (hreport : (validatedFix parser c generator request state).1 = .ok report) :
    EndsAs parser c request (generator.map fun ask => (ask request state).1) report.outcome := by
  unfold validatedFix at hreport
  by_cases hempty : request.diagnostics = []
  · rw [if_pos (List.isEmpty_iff.mpr hempty)] at hreport
    cases hreport
    exact .noIssues hempty
  · rw [if_neg fun h => hempty (List.isEmpty_iff.mp h)] at hreport
    cases generator with
    | none =>
      have huseless : ¬IsHelpful request.source none := by
        rintro ⟨fix, hfix, -⟩
        cases hfix
      cases hreport
      exact endsAs_fallBack hempty huseless fun hnot =>
        .generationFailed none hempty huseless hnot rfl
    | some ask =>
      dsimp only at hreport
      cases houtcome : judgeAnswer parser c request (ask request state).1 with
      | error broken =>
        rw [houtcome] at hreport
        cases hreport
      | ok outcome =>
        rw [houtcome] at hreport
        cases hreport
        exact endsAs_judgeAnswer hempty houtcome

/-- A generator is asked exactly if there is something to fix. -/
theorem asked_validatedFix {σ : Type} {generator : Option (Generator σ)} {request : FixRequest}
    {state : σ} :
    (request.diagnostics = [] →
      validatedFix parser c generator request state = (.ok ⟨.noIssues, none⟩, state)) ∧
    (request.diagnostics ≠ [] → ∀ report,
      (validatedFix parser c generator request state).1 = .ok report →
        report.answer = generator.map fun ask => (ask request state).1) := by
  constructor
  · intro hempty
    exact if_pos (List.isEmpty_iff.mpr hempty)
  · intro hissues report hreport
    unfold validatedFix at hreport
    rw [if_neg fun h => hissues (List.isEmpty_iff.mp h)] at hreport
    cases generator with
    | none =>
      cases hreport
      rfl
    | some ask =>
      dsimp only at hreport
      cases houtcome : judgeAnswer parser c request (ask request state).1 with
      | error broken =>
        rw [houtcome] at hreport
        cases hreport
      | ok outcome =>
        rw [houtcome] at hreport
        cases hreport
        rfl

namespace EndsAs

variable {request : FixRequest} {answer : Option (Except GenerationError GeneratedFix)}
  {outcome : FixOutcome}

/-- **The status tells what has happened.** Of the conditions on the right exactly one holds. -/
theorem status_iff (h : EndsAs parser c request answer outcome) :
    (outcome.status = "no_issues" ↔ request.diagnostics = []) ∧
    (outcome.status = "fixed" ∧ outcome.isFallback = false ↔
      request.diagnostics ≠ [] ∧ IsHelpful request.source answer) ∧
    (outcome.status = "fixed" ∧ outcome.isFallback = true ↔
      request.diagnostics ≠ [] ∧ ¬IsHelpful request.source answer ∧ IsRemovable parser c request) ∧
    (outcome.status = "validation_failed" ↔
      request.diagnostics ≠ [] ∧ ¬IsHelpful request.source answer ∧
        ¬IsRemovable parser c request ∧ ∃ fix, answer = some (.ok fix)) ∧
    (outcome.status = "generation_failed" ↔
      request.diagnostics ≠ [] ∧ ¬IsHelpful request.source answer ∧
        ¬IsRemovable parser c request ∧
        (answer = none ∨ ∃ cause, answer = some (.error cause))) := by
  cases h with
  | noIssues hempty => simp [FixOutcome.status, hempty]
  | generated hissues hanswer hchanges =>
    have hhelpful : IsHelpful request.source answer := ⟨_, hanswer, hchanges⟩
    simp [FixOutcome.status, FixOutcome.isFallback, hissues, hhelpful]
  | ruleBased hissues huseless hremovable =>
    simp [FixOutcome.status, FixOutcome.isFallback, hissues, huseless, hremovable]
  | validationFailed hissues huseless hnot hanswer =>
    subst hanswer
    simp [FixOutcome.status, hissues, huseless, hnot]
  | generationFailed cause hissues huseless hnot hanswer =>
    cases cause with
    | none =>
      obtain rfl : answer = none := hanswer
      simp [FixOutcome.status, hissues, huseless, hnot]
    | some error =>
      obtain rfl : answer = some (.error error) := hanswer
      simp [FixOutcome.status, hissues, huseless, hnot]

/-- The diff of an outcome applies to the source and changes it. -/
theorem diffChanges_of_mem (h : EndsAs parser c request answer outcome) {diff : Text}
    (hdiff : diff ∈ outcome.diff?) : diffChanges request.source diff = true := by
  cases h with
  | noIssues _ | validationFailed _ _ _ _ | generationFailed _ _ _ _ _ => cases hdiff
  | generated _ _ hchanges =>
    cases hdiff
    exact (ifLegible_eq_ok_iff.mp hchanges).2
  | ruleBased _ _ hremovable hdiff' =>
    cases hdiff
    subst hdiff'
    exact diffChanges_createDiff_default fun e => hremovable.2 e.symm

/-- The diff of an outcome can be read. A diff of the rules counts the lines of the source, so this holds
for every source that can exist. -/
theorem overlongNumber?_of_mem (h : EndsAs parser c request answer outcome)
    (hshort : request.source.length + 1 < Text.powerOfTen Text.digitLimit) {diff : Text}
    (hdiff : diff ∈ outcome.diff?) : overlongNumber? diff = none := by
  cases h with
  | noIssues _ | validationFailed _ _ _ _ | generationFailed _ _ _ _ _ => cases hdiff
  | generated _ _ hchanges =>
    cases hdiff
    exact (ifLegible_eq_ok_iff.mp hchanges).1
  | ruleBased _ _ _ hdiff' =>
    cases hdiff
    subst hdiff'
    have hfixed : (fixAll parser c request.language request.source).length
        ≤ request.source.length :=
      Nat.le_trans (Nat.le_add_right _ _)
        (keptRun_fixRun parser c request.language request.source).length_add_le
    exact overlongNumber?_createDiff defaultContext (by decide) (by decide) hshort (by omega)

/-- The diff of the generator, if it is of use, is that of the outcome. -/
theorem diff?_of_helpful (h : EndsAs parser c request answer outcome)
    (hissues : request.diagnostics ≠ []) {fix : GeneratedFix} (hanswer : answer = some (.ok fix))
    (hchanges : ifLegible fix.diff (diffChanges request.source fix.diff) = .ok true) :
    outcome.diff? = some fix.diff := by
  have hhelpful : IsHelpful request.source answer := ⟨fix, hanswer, hchanges⟩
  cases h with
  | noIssues hempty => exact absurd hempty hissues
  | generated _ hanswer' _ =>
    rw [hanswer] at hanswer'
    cases hanswer'
    rfl
  | ruleBased _ huseless _ _ | validationFailed _ huseless _ _ | generationFailed _ _ huseless _ _ =>
    exact absurd hhelpful huseless

/-- The diff of the rules leads to what they make of the source. -/
theorem applied_of_isFallback (h : EndsAs parser c request answer outcome)
    (hfallback : outcome.isFallback = true) :
    outcome.diff?.bind (applyDiff? request.source)
      = some (fixAll parser c request.language request.source) := by
  cases h with
  | noIssues _ | generated _ _ _ | validationFailed _ _ _ _ | generationFailed _ _ _ _ _ =>
    cases hfallback
  | ruleBased _ _ hremovable hdiff =>
    subst hdiff
    exact applyDiff?_createDiff_default fun e => hremovable.2 e.symm

end EndsAs

/-- There is a diff exactly if the status says so. -/
theorem FixOutcome.isSome_diff?_iff (outcome : FixOutcome) :
    outcome.diff?.isSome = true ↔ outcome.status = "fixed" := by
  cases outcome with
  | noIssues | validationFailed => simp [FixOutcome.diff?, FixOutcome.status]
  | generationFailed _ => simp [FixOutcome.diff?, FixOutcome.status]
  | generated _ | ruleBased _ => simp [FixOutcome.diff?, FixOutcome.status]

/-- **Every request for a fix is classified, unless a number in the diff of the generator is too long.**
Without findings there are no issues, and no generator is asked. With findings, a diff of the generator in
which a number has more digits than are converted leaves the request without an outcome, and nothing else
does. Otherwise

* it is fixed by the generator exactly if this answers with a diff that changes the source, and then
  this is the diff of the outcome;
* if not, it is fixed by the rules exactly if a finding is about an unused import and the rules change
  the source, and then the diff of the outcome leads to just what they make of it;
* if not, the validation has failed if the generator has answered with a fix, and the generation has
  failed if there is no generator or it has failed.

There is a diff exactly if the request is fixed, and then it applies to the source and changes it; and it
can be read, the source having fewer than `10 ^ 4300` characters. -/
theorem validatedFix_classifies {σ : Type} (parser : Parser) (c : RuleConfig)
    (generator : Option (Generator σ)) (request : FixRequest) (state : σ) :
    let result := validatedFix parser c generator request state
    let answer := generator.map fun ask => (ask request state).1
    let fixed := fixAll parser c request.language request.source
    (request.diagnostics = [] → result = (.ok ⟨.noIssues, none⟩, state)) ∧
    (∀ broken, result.1 = .error broken ↔
      request.diagnostics ≠ [] ∧ answer = some (.ok broken.fix) ∧
        overlongNumber? broken.fix.diff = some broken.fault) ∧
    ∀ report, result.1 = .ok report →
      let outcome := report.outcome
      (request.diagnostics ≠ [] → report.answer = answer) ∧
      (outcome.status = "no_issues" ↔ request.diagnostics = []) ∧
      (outcome.status = "fixed" ∧ outcome.isFallback = false ↔
        request.diagnostics ≠ [] ∧ IsHelpful request.source answer) ∧
      (∀ fix, request.diagnostics ≠ [] → answer = some (.ok fix) →
        ifLegible fix.diff (diffChanges request.source fix.diff) = .ok true →
          outcome.diff? = some fix.diff) ∧
      (outcome.status = "fixed" ∧ outcome.isFallback = true ↔
        request.diagnostics ≠ [] ∧ ¬IsHelpful request.source answer ∧
          IsRemovable parser c request) ∧
      (outcome.isFallback = true →
        outcome.diff?.bind (applyDiff? request.source) = some fixed) ∧
      (outcome.status = "validation_failed" ↔
        request.diagnostics ≠ [] ∧ ¬IsHelpful request.source answer ∧
          ¬IsRemovable parser c request ∧ ∃ fix, answer = some (.ok fix)) ∧
      (outcome.status = "generation_failed" ↔
        request.diagnostics ≠ [] ∧ ¬IsHelpful request.source answer ∧
          ¬IsRemovable parser c request ∧
          (answer = none ∨ ∃ cause, answer = some (.error cause))) ∧
      (outcome.diff?.isSome = true ↔ outcome.status = "fixed") ∧
      ∀ diff ∈ outcome.diff?,
        (∃ patched, applyDiff? request.source diff = some patched ∧ patched ≠ request.source) ∧
          (request.source.length + 1 < Text.powerOfTen Text.digitLimit → overlongNumber? diff = none) := by
  intro result answer fixed
  refine ⟨asked_validatedFix.1, fun broken => validatedFix_eq_error_iff, fun report hreport => ?_⟩
  intro outcome
  have hends : EndsAs parser c request answer outcome := endsAs_validatedFix hreport
  obtain ⟨hnone, hgenerated, hruled, hinvalid, hfailed⟩ := hends.status_iff
  refine ⟨fun hissues => asked_validatedFix.2 hissues report hreport, hnone, hgenerated,
    fun fix hissues hanswer hchanges => hends.diff?_of_helpful hissues hanswer hchanges, hruled,
    hends.applied_of_isFallback, hinvalid, hfailed, outcome.isSome_diff?_iff, fun diff hdiff => ?_⟩
  exact ⟨diffChanges_iff.mp (hends.diffChanges_of_mem hdiff),
    fun hshort => hends.overlongNumber?_of_mem hshort hdiff⟩

/-- A request about a source that is nothing but an unused import. -/
def lonelyImportRequest (parser : Parser) : FixRequest where
  source := "import a from 'a';\n".toList
  language := .js
  filePath := "app.js"
  diagnostics := analyze parser {} .js "import a from 'a';\n".toList
  repoContext := none

/-- The generator answers with a text that is no diff, and so the rules stand in. -/
theorem validatedFix_classifies_lonelyImport :
    let parser := shortParser [("import a from 'a';\n", [shortImport 0]), ("", [])]
    let request := lonelyImportRequest parser
    let ask : Generator Nat := fun _ count => (.ok { diff := "Remove it.".toList }, count + 1)
    ∃ report, (validatedFix parser {} (some ask) request 0).1 = .ok report ∧
      request.diagnostics ≠ [] ∧ report.outcome.isFallback = true ∧
      report.outcome.diff?.bind (applyDiff? request.source) = some [] := by
  intro parser request ask
  obtain ⟨-, hbroken, hclassified⟩ := validatedFix_classifies parser {} (some ask) request 0
  have hissues : request.diagnostics ≠ [] := by decide +kernel
  cases hresult : (validatedFix parser {} (some ask) request 0).1 with
  | error broken =>
    obtain ⟨-, hanswer, hfault⟩ := (hbroken broken).mp hresult
    have hfix : broken.fix = { diff := "Remove it.".toList } :=
      (Except.ok.inj (Option.some.inj hanswer)).symm
    rw [hfix] at hfault
    cases hfault
  | ok report =>
    obtain ⟨-, -, -, -, hruled, happlied, -⟩ := hclassified report hresult
    have huseless : ¬IsHelpful request.source (some (ask request 0).1) := by
      rintro ⟨fix, hfix, hchanges⟩
      cases hfix
      exact absurd (ifLegible_eq_ok_iff.mp hchanges).2 (by decide +kernel)
    have hfixed : fixAll parser {} request.language request.source = [] := by decide +kernel
    have hremovable : IsRemovable parser {} request := by
      refine ⟨by decide +kernel, ?_⟩
      rw [hfixed]
      decide
    have hfallback := (hruled.mpr ⟨hissues, huseless, hremovable⟩).2
    refine ⟨report, rfl, hissues, hfallback, ?_⟩
    rw [happlied hfallback, hfixed]

/-- The generator answers with a diff at a line whose number is too long, and the request ends without an
outcome, although the rules could stand in. -/
theorem not_validatedFix_classifies_overlong :
    ¬∀ (parser : Parser) (c : RuleConfig) (ask : Generator Nat) (request : FixRequest) (state : Nat),
      ∃ report, (validatedFix parser c (some ask) request state).1 = .ok report := by
  intro h
  let parser := shortParser [("import a from 'a';\n", [shortImport 0]), ("", [])]
  let ask : Generator Nat := fun _ count => (.ok { diff := farPatch.render }, count + 1)
  obtain ⟨report, hreport⟩ := h parser {} ask (lonelyImportRequest parser) 0
  obtain ⟨fault, hfault⟩ := exists_overlongNumber?_farPatch
  have hissues : (lonelyImportRequest parser).diagnostics ≠ [] := by decide +kernel
  have hbroken : (validatedFix parser {} (some ask) (lonelyImportRequest parser) 0).1
      = .error ⟨{ diff := farPatch.render }, fault⟩ :=
    validatedFix_eq_error_iff.mpr ⟨hissues, rfl, hfault⟩
  rw [hreport] at hbroken
  cases hbroken

end PatchLint
