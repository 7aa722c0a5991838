import PatchLint.Fix.All
import PatchLint.Proofs.Fix.LineRemoval
import PatchLint.Tree.Bank

/-!
# Runs of fixes

A run of fixes tries one fix after another. What it does to the source is told by the fixes that are
kept (`FixRun.kept`): each leads from one draft to the next (`KeptFix`), and one behind the other they
lead from the source to the result (`KeptRun`).

* `KeptFix.deletesLine`, `KeptFix.exists_parse`, `KeptFix.missingCount_le` — what one kept fix does
* `KeptRun.invariant` — what every kept fix preserves, a run preserves
* `exists_keptRun` — the run that is made, and that it stops early only if no further fix is kept
* `fixAll_envelope` — what all of this means for the result
-/

namespace PatchLint

variable (parser : Parser) (c : RuleConfig) (language : Language)

/-! ## Kept fixes -/

/-- A source at the start of its fixing. -/
def Draft.ofSource (source : Text) : Draft := ⟨source, analyze parser c language source⟩

/-- Whether a fix was kept. -/
def Attempt.isKept (a : Attempt) : Bool :=
  match a.verdict with
  | .ok _ => true
  | .error _ => false

/-- The fixes of a run that were kept. -/
def FixRun.kept (r : FixRun) : List Attempt := r.attempts.filter Attempt.isKept

/-- A fix that is tried on a draft and kept, with the draft it leads to. -/
structure KeptFix (d : Draft) (a : Attempt) (next : Draft) : Prop where
  target : fixTarget? d.findings = some a.target
  tried : a = attempt parser c language d a.target
  after : a.after = some next.text
  verdict : a.verdict = .ok next.findings

/-- Kept fixes, one behind the other. -/
inductive KeptRun : Draft → List Attempt → Draft → Prop
  | done (d : Draft) : KeptRun d [] d
  | step {d next last : Draft} {a : Attempt} {rest : List Attempt} :
    KeptFix parser c language d a next → KeptRun next rest last → KeptRun d (a :: rest) last

/-- Whether no fix is kept any more. -/
def IsFinished (d : Draft) : Prop := ∀ a next, ¬KeptFix parser c language d a next

variable {parser c language}

/-- **A text is kept if it is another one, can be parsed and does not lack more imports.** -/
theorem judge_eq_ok_iff {d : Draft} {after : Text} {findings : List Diagnostic} :
    judge parser c language d (some after) = .ok findings ↔
      after ≠ d.text ∧ ∃ root, parse parser language after = .ok root ∧
        findings = analyzeTree c (Utf8.encode after) root ∧
        missingCount findings ≤ missingCount d.findings := by
  rw [judge]
  by_cases hsame : after = d.text
  · rw [if_pos hsame]
    constructor
    · intro h
      cases h
    · intro h
      exact absurd hsame h.1
  rw [if_neg hsame]
  cases hparse : parse parser language after with
  | error fault => simp
  | ok root =>
    dsimp only
    split
    · next hmore =>
      constructor
      · intro h
        cases h
      · rintro ⟨-, root', hroot, rfl, hle⟩
        cases hroot
        exact absurd hmore (Nat.not_lt.mpr hle)
    · next hle =>
      constructor
      · intro h
        cases h
        exact ⟨hsame, root, rfl, rfl, Nat.not_lt.mp hle⟩
      · rintro ⟨-, root', hroot, rfl, -⟩
        cases hroot
        rfl

namespace KeptFix

variable {d next : Draft} {a : Attempt}

theorem before_eq (h : KeptFix parser c language d a next) : a.before = d.text := by
  rw [h.tried]
  rfl

theorem judged (h : KeptFix parser c language d a next) :
    judge parser c language d (some next.text) = .ok next.findings := by
  have hverdict : a.verdict = judge parser c language d a.after := by
    rw [h.tried]
    rfl
  rw [← h.after, ← hverdict, h.verdict]

/-- **A kept fix deletes the line on which its finding starts.** -/
theorem deletesLine (h : KeptFix parser c language d a next) :
    ∃ index, lineIndex? (Text.pieces '\n' d.text) a.target.start = some index ∧
      DeletesLine index d.text next.text := by
  have hafter : a.after = (fixFor? d.text a.target).bind (applyDiff? d.text) := by
    rw [h.tried]
    rfl
  exact exists_deletesLine_of_fix (hafter.symm.trans h.after)

/-- **The text after a kept fix can be parsed,** and the findings are those in its tree. -/
theorem exists_parse (h : KeptFix parser c language d a next) :
    ∃ root, parse parser language next.text = .ok root ∧
      next.findings = analyzeTree c (Utf8.encode next.text) root := by
  obtain ⟨-, root, hparse, hfindings, -⟩ := judge_eq_ok_iff.mp h.judged
  exact ⟨root, hparse, hfindings⟩

theorem missingCount_le (h : KeptFix parser c language d a next) :
    missingCount next.findings ≤ missingCount d.findings := by
  obtain ⟨-, -, -, -, hle⟩ := judge_eq_ok_iff.mp h.judged
  exact hle

/-- **A draft after a kept fix is as if fixing started there.** -/
theorem next_eq_ofSource (h : KeptFix parser c language d a next) :
    next = Draft.ofSource parser c language next.text := by
  obtain ⟨root, hparse, hfindings⟩ := h.exists_parse
  rw [Draft.ofSource, analyze, hparse]
  dsimp only
  rw [← hfindings]

end KeptFix

/-! ## Runs -/

namespace KeptRun

variable {d last : Draft} {as : List Attempt}

/-- **What every kept fix preserves, a run preserves.** -/
theorem invariant {P : Draft → Prop} (h : KeptRun parser c language d as last)
    (hstep : ∀ {d a next}, KeptFix parser c language d a next → P d → P next) (hd : P d) :
    P last := by
  induction h with
  | done => exact hd
  | step hfix _ ih => exact ih (hstep hfix hd)

/-- Every fix of a run is kept at a draft for which the invariant holds. -/
theorem exists_of_mem {P : Draft → Prop} (h : KeptRun parser c language d as last)
    (hstep : ∀ {d a next}, KeptFix parser c language d a next → P d → P next) (hd : P d)
    {a : Attempt} (ha : a ∈ as) :
    ∃ d next, P d ∧ KeptFix parser c language d a next := by
  induction h with
  | done => cases ha
  | step hfix _ ih =>
    rcases List.mem_cons.mp ha with rfl | ha
    · exact ⟨_, _, hd, hfix⟩
    · exact ih (hstep hfix hd) ha

/-- **Every kept fix costs a character at least.** -/
theorem length_add_le (h : KeptRun parser c language d as last) :
    last.text.length + as.length ≤ d.text.length := by
  induction h with
  | done => exact Nat.le_refl _
  | step hfix _ ih =>
    obtain ⟨index, -, hdelete⟩ := hfix.deletesLine
    have hlt := hdelete.length_lt
    rw [List.length_cons]
    omega

theorem eq_ofSource {source : Text}
    (h : KeptRun parser c language (Draft.ofSource parser c language source) as last) :
    last = Draft.ofSource parser c language last.text :=
  h.invariant (P := fun d => d = Draft.ofSource parser c language d.text)
    (fun hfix _ => hfix.next_eq_ofSource) rfl

/-- A run does not make more imports missing. -/
theorem missingCount_le (h : KeptRun parser c language d as last) :
    missingCount last.findings ≤ missingCount d.findings :=
  h.invariant (P := fun e => missingCount e.findings ≤ missingCount d.findings)
    (fun hfix he => Nat.le_trans hfix.missingCount_le he) (Nat.le_refl _)

end KeptRun

/-! ## The run that is made -/

theorem fixRunFrom_of_keptFix {d next : Draft} {a : Attempt}
    (h : KeptFix parser c language d a next) (count : Nat) :
    fixRunFrom parser c language (count + 1) d
      = ⟨a :: (fixRunFrom parser c language count next).attempts,
          (fixRunFrom parser c language count next).text⟩ := by
  rw [fixRunFrom, h.target]
  dsimp only
  rw [← h.tried, h.verdict, h.after]

/-- A draft that is finished stays as it is. -/
theorem fixRunFrom_of_isFinished {d : Draft} (h : IsFinished parser c language d) (count : Nat) :
    (fixRunFrom parser c language count d).kept = [] ∧
      (fixRunFrom parser c language count d).text = d.text := by
  cases count with
  | zero => exact ⟨rfl, rfl⟩
  | succ count =>
    rw [fixRunFrom]
    cases htarget : fixTarget? d.findings with
    | none => exact ⟨rfl, rfl⟩
    | some target =>
      dsimp only
      cases hverdict : (attempt parser c language d target).verdict with
      | error rejection =>
        refine ⟨?_, rfl⟩
        simp [FixRun.kept, Attempt.isKept, hverdict]
      | ok findings =>
        cases hafter : (attempt parser c language d target).after with
        | some patched =>
          exact absurd ⟨htarget, rfl, hafter, hverdict⟩
            (h (attempt parser c language d target) ⟨patched, findings⟩)
        | none =>
          -- without a text after the fix there is nothing to keep
          have hjudge : (attempt parser c language d target).verdict
              = judge parser c language d (attempt parser c language d target).after := rfl
          rw [hverdict, hafter, judge] at hjudge
          cases hjudge

/-- **The run that is made.** It keeps fixes one behind the other, at most as many as it may try, and
if it keeps fewer then it has stopped because no further one is kept. -/
theorem exists_keptRun (parser : Parser) (c : RuleConfig) (language : Language) (count : Nat)
    (d : Draft) :
    ∃ last, KeptRun parser c language d (fixRunFrom parser c language count d).kept last ∧
      (fixRunFrom parser c language count d).text = last.text ∧
      (fixRunFrom parser c language count d).kept.length ≤ count ∧
      ((fixRunFrom parser c language count d).kept.length < count →
        IsFinished parser c language last) := by
  induction count generalizing d with
  | zero => exact ⟨d, .done d, rfl, Nat.le_refl 0, fun h => absurd h (Nat.not_lt_zero _)⟩
  | succ count ih =>
    by_cases hfinished : IsFinished parser c language d
    · obtain ⟨hkept, htext⟩ := fixRunFrom_of_isFinished hfinished (count + 1)
      rw [hkept, htext]
      exact ⟨d, .done d, rfl, Nat.zero_le _, fun _ => hfinished⟩
    · obtain ⟨a, next, hfix⟩ : ∃ a next, KeptFix parser c language d a next := by
        simpa [IsFinished] using hfinished
      obtain ⟨last, hrun, htext, hle, hstop⟩ := ih next
      have hkept : (fixRunFrom parser c language (count + 1) d).kept
          = a :: (fixRunFrom parser c language count next).kept := by
        rw [fixRunFrom_of_keptFix hfix, FixRun.kept, List.filter_cons_of_pos]
        · rfl
        · simp [Attempt.isKept, hfix.verdict]
      rw [hkept, List.length_cons]
      refine ⟨last, .step hfix hrun, ?_, by omega, fun hlt => hstop (by omega)⟩
      rw [fixRunFrom_of_keptFix hfix, htext]

/-- The run of a source leads from it to its result. -/
theorem keptRun_fixRun (parser : Parser) (c : RuleConfig) (language : Language) (source : Text) :
    KeptRun parser c language (Draft.ofSource parser c language source)
      (fixRun parser c language source).kept
      (Draft.ofSource parser c language (fixAll parser c language source)) := by
  obtain ⟨last, hrun, htext, -, -⟩ := exists_keptRun parser c language
    (analyze parser c language source).length (Draft.ofSource parser c language source)
  have hlast := hrun.eq_ofSource
  rw [← htext] at hlast
  rw [hlast] at hrun
  exact hrun

theorem length_kept_fixRun (parser : Parser) (c : RuleConfig) (language : Language)
    (source : Text) :
    (fixRun parser c language source).kept.length ≤ (analyze parser c language source).length := by
  obtain ⟨-, -, -, hle, -⟩ := exists_keptRun parser c language
    (analyze parser c language source).length (Draft.ofSource parser c language source)
  exact hle

/-! ## The envelope -/

/-- **What fixing can do to a source.** Its kept fixes lead from the source to the result. Each of them
deletes exactly one line and makes the text shorter, and there are at most as many as the source has
findings. So the lines of the result are lines of the source in their order; the result is the source
itself or can be parsed; and it does not lack more imports than the source. -/
theorem fixAll_envelope (parser : Parser) (c : RuleConfig) (language : Language) (source : Text) :
    let run := fixRun parser c language source
    let fixed := fixAll parser c language source
    KeptRun parser c language (Draft.ofSource parser c language source) run.kept
        (Draft.ofSource parser c language fixed) ∧
      (∀ a ∈ run.kept, ∃ after, a.after = some after ∧ after.length < a.before.length ∧
        ∃ index, DeletesLine index a.before after) ∧
      run.kept.length ≤ (analyze parser c language source).length ∧
      (Document.ofText fixed).lines.Sublist (Document.ofText source).lines ∧
      (fixed = source ∨ ∃ root, parse parser language fixed = .ok root) ∧
      missingCount (analyze parser c language fixed)
        ≤ missingCount (analyze parser c language source) := by
  intro run fixed
  have hrun : KeptRun parser c language (Draft.ofSource parser c language source) run.kept
      (Draft.ofSource parser c language fixed) := keptRun_fixRun parser c language source
  refine ⟨hrun, ?_, length_kept_fixRun parser c language source, ?_, ?_, hrun.missingCount_le⟩
  · intro a ha
    obtain ⟨d, next, -, hfix⟩ := hrun.exists_of_mem (P := fun _ => True) (fun _ _ => trivial) trivial ha
    obtain ⟨index, -, hdelete⟩ := hfix.deletesLine
    rw [← hfix.before_eq] at hdelete
    exact ⟨next.text, hfix.after, hdelete.length_lt, index, hdelete⟩
  · refine hrun.invariant (P := fun d => (Document.ofText d.text).lines.Sublist
      (Document.ofText source).lines) (fun hfix hd => ?_) (List.Sublist.refl _)
    obtain ⟨index, -, hdelete⟩ := hfix.deletesLine
    exact hdelete.lines_sublist.trans hd
  · refine hrun.invariant (P := fun d => d.text = source ∨
      ∃ root, parse parser language d.text = .ok root) (fun hfix _ => ?_) (Or.inl rfl)
    obtain ⟨root, hparse, -⟩ := hfix.exists_parse
    exact Or.inr ⟨root, hparse⟩

/-! ## Short programs

Programs of imports and calls, on which runs can be shown. -/

/-- A token. -/
def shortToken (kind : String) (start stop : Nat) : Node :=
  .mk ⟨kind, start, stop, false, false, false, []⟩ []

/-- A named node. -/
def shortNode (kind : String) (start stop : Nat) (fields : List String) (children : List Node) :
    Node := .mk ⟨kind, start, stop, true, false, false, fields⟩ children

/-- The import of a name of one letter, `import a from 'a';`, at an offset. -/
def shortImport (start : Nat) : Node :=
  shortNode "import_statement" start (start + 18) []
    [shortToken "import" start (start + 6),
     shortNode "import_clause" (start + 7) (start + 8) []
       [shortNode "identifier" (start + 7) (start + 8) [] []],
     shortToken "from" (start + 9) (start + 13),
     shortNode "string" (start + 14) (start + 17) ["source"]
       [shortToken "'" (start + 14) (start + 15),
        shortNode "string_fragment" (start + 15) (start + 16) [] [],
        shortToken "'" (start + 16) (start + 17)],
     shortToken ";" (start + 17) (start + 18)]

/-- The call of a name of some width, `a();`, at an offset. -/
def shortCall (start width : Nat) : Node :=
  let stop := start + width
  shortNode "expression_statement" start (stop + 3) []
    [shortNode "call_expression" start (stop + 2) []
       [shortNode "identifier" start stop ["function"] [],
        shortNode "arguments" stop (stop + 2) []
          [shortToken "(" stop (stop + 1), shortToken ")" (stop + 1) (stop + 2)]],
     shortToken ";" (stop + 2) (stop + 3)]

/-- The parser that knows some programs, each with its statements. -/
def shortParser (programs : List (String × List Node)) : Parser :=
  TreeBank.parser (programs.map fun (source, statements) =>
    ⟨.javascript, source.toList, shortNode "program" 0 source.utf8ByteSize [] statements⟩)

end PatchLint
