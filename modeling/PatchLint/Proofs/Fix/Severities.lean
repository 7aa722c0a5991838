import PatchLint.Proofs.Fix.KeptRun
import PatchLint.Proofs.Rules.Configuration

/-!
# Fixing under other severities

Only unused imports are fixed, but the findings of the other rules have a say in it in two ways: all of
them together bound the number of attempts, and a fix is discarded if it leaves more missing imports,
which are counted only if they are reported. So two configurations that differ in the severities of the
other rules (`RuleConfig.FixAlike`) may fix a source differently (`fixAll_severities_ne`).

How far they agree is shown in three steps.

* `KeptFix.transfer` — a fix that is kept under the one is kept under the other, unless missing imports
  are reported only under the other
* `KeptRun.comparable` — of two runs from one draft, one goes on where the other ends
* `fixAll_severities` — so the kept fixes of the one run are the first of the other, and there are two
  reasons only for a run to end earlier
-/

namespace PatchLint

variable {parser : Parser} {c c' : RuleConfig} {language : Language}

/-- Whether two configurations differ only in the severities of the rules without a fix. -/
structure RuleConfig.FixAlike (c c' : RuleConfig) : Prop where
  severity : c'.severity .unusedImport = c.severity .unusedImport
  globals : c'.globals = c.globals
  allow : c'.allow = c.allow

theorem RuleConfig.FixAlike.refl (c : RuleConfig) : c.FixAlike c := ⟨rfl, rfl, rfl⟩

theorem RuleConfig.FixAlike.symm (h : c.FixAlike c') : c'.FixAlike c :=
  ⟨h.severity.symm, h.globals.symm, h.allow.symm⟩

/-! ## The findings -/

namespace RuleConfig.FixAlike

theorem reports_eq (h : c.FixAlike c') {f : Finding}
    (henables : c'.enables f.rule = c.enables f.rule) : c'.reports f = c.reports f := by
  have hexcuses : c'.excuses f = c.excuses f := by
    rw [excuses, excuses, h.globals, h.allow]
  rw [reports, reports, henables, hexcuses]

theorem enables_unusedImport (h : c.FixAlike c') :
    c'.enables .unusedImport = c.enables .unusedImport := by
  rw [enables, enables, h.severity]

/-- **The finding that is fixed next is the same.** -/
theorem fixTarget?_analyzeTree (h : c.FixAlike c') (source : List UInt8) (root : Node) :
    fixTarget? (analyzeTree c' source root) = fixTarget? (analyzeTree c source root) := by
  have hselect (e : RuleConfig) : fixTarget? (analyzeTree e source root)
      = ((possibleFindings source root).find? fun f =>
          decide (f.rule = .unusedImport) && e.reports f).map e.report := by
    rw [analyzeTree_eq_reported, fixTarget?, List.find?_map, RuleConfig.reported, List.find?_filter]
    refine congrArg (Option.map e.report) (congrArg (List.find? · _) (funext fun f => ?_))
    cases hrule : f.rule with
    | unusedImport => simp [RuleConfig.report, RuleConfig.diagnostic, Rule.quickFixable, hrule]
    | missingImport | nullAccess | missingAwait =>
      simp [RuleConfig.report, RuleConfig.diagnostic, Rule.quickFixable, hrule]
  have htest : (fun f : Finding => decide (f.rule = .unusedImport) && c'.reports f)
      = fun f => decide (f.rule = .unusedImport) && c.reports f := by
    funext f
    by_cases hrule : f.rule = .unusedImport
    · have henables : c'.enables f.rule = c.enables f.rule := by rw [hrule, h.enables_unusedImport]
      rw [h.reports_eq henables]
    · rw [decide_eq_false hrule, Bool.false_and, Bool.false_and]
  rw [hselect, hselect, htest]
  refine Option.map_congr fun f hf => ?_
  have hrule : f.rule = .unusedImport := by
    have htest := List.find?_some hf
    rw [Bool.and_eq_true] at htest
    exact of_decide_eq_true htest.1
  rw [report, report, diagnostic, diagnostic, hrule, h.severity]

end RuleConfig.FixAlike

theorem RuleConfig.FixAlike.fixTarget?_analyze (h : c.FixAlike c') (text : Text) :
    fixTarget? (analyze parser c' language text) = fixTarget? (analyze parser c language text) := by
  rw [analyze, analyze]
  cases parse parser language text with
  | error fault => rfl
  | ok root => exact h.fixTarget?_analyzeTree (Utf8.encode text) root

/-- Missing imports are counted among the findings that are reported. -/
theorem missingCount_analyzeTree (c : RuleConfig) (source : List UInt8) (root : Node) :
    missingCount (analyzeTree c source root)
      = (possibleFindings source root).countP fun f =>
          decide (f.rule = .missingImport) && c.reports f := by
  rw [missingCount, analyzeTree_eq_reported, List.countP_map, RuleConfig.reported, List.countP_filter]
  refine List.countP_congr fun f _ => ?_
  rw [Bool.and_eq_true, Bool.and_eq_true, decide_eq_true_iff, Function.comp_apply, beq_iff_eq,
    RuleConfig.ruleId_report_eq_iff]

/-- They are counted alike if they are reported under both configurations or under none. -/
theorem RuleConfig.FixAlike.missingCount_eq (h : c.FixAlike c')
    (henables : c'.enables .missingImport = c.enables .missingImport) (text : Text) :
    missingCount (analyze parser c' language text) = missingCount (analyze parser c language text) := by
  rw [analyze, analyze]
  cases parse parser language text with
  | error fault => rfl
  | ok root =>
    dsimp only
    rw [missingCount_analyzeTree, missingCount_analyzeTree]
    refine List.countP_congr fun f _ => ?_
    by_cases hrule : f.rule = .missingImport
    · have henables : c'.enables f.rule = c.enables f.rule := by rw [hrule, henables]
      rw [h.reports_eq henables]
    · rw [decide_eq_false hrule, Bool.false_and, Bool.false_and]

/-- Where missing imports are not reported, there are none to count. -/
theorem missingCount_of_off (h : c.enables .missingImport = false) (text : Text) :
    missingCount (analyze parser c language text) = 0 := by
  rw [analyze]
  cases parse parser language text with
  | error fault => rfl
  | ok root =>
    dsimp only
    rw [missingCount_analyzeTree, List.countP_eq_zero]
    intro f _ hf
    rw [Bool.and_eq_true, decide_eq_true_iff, RuleConfig.reports] at hf
    rw [hf.1, h] at hf
    cases hf.2

/-! ## One fix -/

/-- What a fix is for and what it does to the text, whatever is found afterwards. -/
def Attempt.edit (a : Attempt) : Text × Diagnostic × Option Text := (a.before, a.target, a.after)

theorem edit_attempt (parser : Parser) (c : RuleConfig) (language : Language) (d : Draft)
    (target : Diagnostic) :
    (attempt parser c language d target).edit
      = (d.text, target, (fixFor? d.text target).bind (applyDiff? d.text)) := rfl

/-- Whether a configuration keeps every fix that another one keeps: it counts missing imports only if
the other one does. -/
def RuleConfig.IsLaxer (c' c : RuleConfig) : Prop :=
  c'.enables .missingImport = true → c.enables .missingImport = true

theorem RuleConfig.isLaxer_total (c c' : RuleConfig) : c.IsLaxer c' ∨ c'.IsLaxer c := by
  rw [IsLaxer, IsLaxer]
  cases c.enables .missingImport with
  | false => exact Or.inl fun h => absurd h Bool.false_ne_true
  | true => exact Or.inr fun _ => rfl

/-- If the number of missing imports does not grow under a configuration, it does not grow under a laxer
one. -/
theorem RuleConfig.FixAlike.missingCount_le (h : c.FixAlike c') (hlax : c'.IsLaxer c)
    {before after : Text}
    (hle : missingCount (analyze parser c language after)
      ≤ missingCount (analyze parser c language before)) :
    missingCount (analyze parser c' language after)
      ≤ missingCount (analyze parser c' language before) := by
  cases hcounted : c'.enables .missingImport with
  | false =>
    rw [missingCount_of_off hcounted]
    exact Nat.zero_le _
  | true =>
    have henables := hcounted.trans (hlax hcounted).symm
    rwa [h.missingCount_eq henables, h.missingCount_eq henables]

/-- When a fix is kept at the start of a run: the text after it is another one, can be parsed and does
not lack more imports. -/
theorem keptFix_ofSource_iff {text after : Text} {a : Attempt} :
    KeptFix parser c language (Draft.ofSource parser c language text) a
        (Draft.ofSource parser c language after) ↔
      fixTarget? (analyze parser c language text) = some a.target ∧
        a = attempt parser c language (Draft.ofSource parser c language text) a.target ∧
        a.after = some after ∧ after ≠ text ∧ (∃ root, parse parser language after = .ok root) ∧
        missingCount (analyze parser c language after)
          ≤ missingCount (analyze parser c language text) := by
  have hanalyze {root : Node} (hparse : parse parser language after = .ok root) :
      analyze parser c language after = analyzeTree c (Utf8.encode after) root := by
    rw [analyze, hparse]
  constructor
  · intro h
    obtain ⟨hne, root, hparse, -, hle⟩ := judge_eq_ok_iff.mp h.judged
    exact ⟨h.target, h.tried, h.after, hne, ⟨root, hparse⟩, hle⟩
  · rintro ⟨htarget, htried, hafter, hne, ⟨root, hparse⟩, hle⟩
    refine ⟨htarget, htried, hafter, ?_⟩
    have hverdict : a.verdict
        = judge parser c language (Draft.ofSource parser c language text) a.after := by
      rw [htried]
      rfl
    rw [hverdict, hafter, judge_eq_ok_iff]
    exact ⟨hne, root, hparse, hanalyze hparse, hle⟩

/-- **A kept fix is kept under a laxer configuration too.** -/
theorem KeptFix.transfer (h : c.FixAlike c') (hlax : c'.IsLaxer c) {text after : Text} {a : Attempt}
    (hfix : KeptFix parser c language (Draft.ofSource parser c language text) a
      (Draft.ofSource parser c language after)) :
    ∃ b, b.edit = a.edit ∧ KeptFix parser c' language (Draft.ofSource parser c' language text) b
      (Draft.ofSource parser c' language after) := by
  obtain ⟨htarget, htried, hafter, hne, hparse, hle⟩ := keptFix_ofSource_iff.mp hfix
  have hedit : (attempt parser c' language (Draft.ofSource parser c' language text) a.target).edit
      = a.edit := by
    rw [edit_attempt, congrArg Attempt.edit htried, edit_attempt]
    rfl
  refine ⟨_, hedit, keptFix_ofSource_iff.mpr ⟨?_, rfl, ?_, hne, hparse, h.missingCount_le hlax hle⟩⟩
  · rw [h.fixTarget?_analyze, htarget]
    rfl
  · exact (congrArg (·.2.2) hedit).trans hafter

/-- A draft determines the fix that is kept at it. -/
theorem KeptFix.unique {d next next' : Draft} {a a' : Attempt}
    (h : KeptFix parser c language d a next) (h' : KeptFix parser c language d a' next') :
    a = a' ∧ next = next' := by
  have htarget : a.target = a'.target := Option.some.inj (h.target.symm.trans h'.target)
  have hattempt : a = a' := by rw [h.tried, h'.tried, htarget]
  subst hattempt
  have htext : next.text = next'.text := Option.some.inj (h.after.symm.trans h'.after)
  have hfindings : next.findings = next'.findings := Except.ok.inj (h.verdict.symm.trans h'.verdict)
  refine ⟨rfl, ?_⟩
  cases next
  cases next'
  exact congrArg₂ Draft.mk htext hfindings

/-! ## Runs -/

namespace KeptRun

/-- **Kept fixes are kept under a laxer configuration too.** -/
theorem transfer (h : c.FixAlike c') (hlax : c'.IsLaxer c) {d last : Draft} {as : List Attempt}
    (hrun : KeptRun parser c language d as last)
    (hd : d = Draft.ofSource parser c language d.text) :
    ∃ bs, bs.map Attempt.edit = as.map Attempt.edit ∧
      KeptRun parser c' language (Draft.ofSource parser c' language d.text) bs
        (Draft.ofSource parser c' language last.text) := by
  induction hrun with
  | done d => exact ⟨[], rfl, .done _⟩
  | step hfix _ ih =>
    have hnext := hfix.next_eq_ofSource
    obtain ⟨bs, hedits, hrest⟩ := ih hnext
    rw [hd, hnext] at hfix
    obtain ⟨b, hedit, hfix'⟩ := hfix.transfer h hlax
    refine ⟨b :: bs, ?_, .step hfix' hrest⟩
    rw [List.map_cons, List.map_cons, hedit, hedits]

/-- **Of two runs from one draft, one goes on where the other ends.** -/
theorem comparable {d last last' : Draft} {as bs : List Attempt}
    (h : KeptRun parser c language d as last) (h' : KeptRun parser c language d bs last') :
    (∃ rest, bs = as ++ rest ∧ KeptRun parser c language last rest last') ∨
      (∃ rest, as = bs ++ rest ∧ KeptRun parser c language last' rest last) := by
  induction h generalizing bs with
  | done d => exact Or.inl ⟨bs, rfl, h'⟩
  | step hfix hrest ih =>
    cases h' with
    | done _ => exact Or.inr ⟨_, rfl, .step hfix hrest⟩
    | step hfix' hrest' =>
      obtain ⟨rfl, rfl⟩ := hfix.unique hfix'
      rcases ih hrest' with ⟨rest, rfl, hrun⟩ | ⟨rest, rfl, hrun⟩
      · exact Or.inl ⟨rest, rfl, hrun⟩
      · exact Or.inr ⟨rest, rfl, hrun⟩

theorem eq_of_nil {d last : Draft} (h : KeptRun parser c language d [] last) : d = last := by
  cases h
  rfl

theorem exists_keptFix {d last : Draft} {as : List Attempt}
    (h : KeptRun parser c language d as last) (hne : as ≠ []) :
    ∃ a next, KeptFix parser c language d a next := by
  cases h with
  | done => exact absurd rfl hne
  | step hfix _ => exact ⟨_, _, hfix⟩

end KeptRun

/-- Whether one run goes on where another one ends: it makes the same edits first, and those it makes
then are kept under a configuration. -/
def FixRun.GoesOn (parser : Parser) (c : RuleConfig) (language : Language) (r r' : FixRun) : Prop :=
  ∃ rest, r'.kept.map Attempt.edit = r.kept.map Attempt.edit ++ rest.map Attempt.edit ∧
    KeptRun parser c language (Draft.ofSource parser c language r.text) rest
      (Draft.ofSource parser c language r'.text)

namespace FixRun.GoesOn

variable {r r' : FixRun}

theorem length_le (h : GoesOn parser c language r r') : r.kept.length ≤ r'.kept.length := by
  obtain ⟨rest, hedits, -⟩ := h
  have hlength := congrArg List.length hedits
  rw [List.length_append, List.length_map, List.length_map, List.length_map] at hlength
  omega

/-- Both runs end with the same text exactly if nothing is left to go on with. -/
theorem text_eq_iff (h : GoesOn parser c language r r') :
    r.text = r'.text ↔ r.kept.length = r'.kept.length := by
  obtain ⟨rest, hedits, hrun⟩ := h
  have hlength := congrArg List.length hedits
  rw [List.length_append, List.length_map, List.length_map, List.length_map] at hlength
  constructor
  · intro htext
    -- every kept fix makes the text shorter
    have hle : r'.text.length + rest.length ≤ r.text.length := hrun.length_add_le
    rw [htext] at hle
    omega
  · intro heq
    obtain rfl : rest = [] := List.eq_nil_of_length_eq_zero (by omega)
    exact congrArg Draft.text hrun.eq_of_nil

/-- A run that keeps more has a fix to go on with. -/
theorem exists_keptFix (h : GoesOn parser c language r r')
    (hlt : r.kept.length < r'.kept.length) :
    ∃ a after, KeptFix parser c language (Draft.ofSource parser c language r.text) a
      (Draft.ofSource parser c language after) := by
  obtain ⟨rest, hedits, hrun⟩ := h
  have hne : rest ≠ [] := by
    rintro rfl
    have hlength := congrArg List.length hedits
    rw [List.map_nil, List.append_nil, List.length_map, List.length_map] at hlength
    omega
  obtain ⟨a, next, hfix⟩ := hrun.exists_keptFix hne
  rw [hfix.next_eq_ofSource] at hfix
  exact ⟨a, _, hfix⟩

end FixRun.GoesOn

/-- **Of the runs under two configurations, one goes on where the other ends.** The two meet under the
laxer configuration. -/
theorem RuleConfig.FixAlike.goesOn (h : c.FixAlike c') (parser : Parser) (language : Language)
    (source : Text) :
    ∃ e, (e = c ∨ e = c') ∧
      (FixRun.GoesOn parser e language (fixRun parser c language source)
          (fixRun parser c' language source) ∨
        FixRun.GoesOn parser e language (fixRun parser c' language source)
          (fixRun parser c language source)) := by
  obtain ⟨e, he, hc, hc', hlax, hlax'⟩ : ∃ e : RuleConfig, (e = c ∨ e = c') ∧ c.FixAlike e ∧
      c'.FixAlike e ∧ e.IsLaxer c ∧ e.IsLaxer c' := by
    rcases RuleConfig.isLaxer_total c c' with hlax | hlax
    · exact ⟨c, Or.inl rfl, .refl c, h.symm, id, hlax⟩
    · exact ⟨c', Or.inr rfl, h, .refl c', hlax, id⟩
  obtain ⟨as, hedits, hrun⟩ := (keptRun_fixRun parser c language source).transfer hc hlax rfl
  obtain ⟨bs, hedits', hrun'⟩ := (keptRun_fixRun parser c' language source).transfer hc' hlax' rfl
  refine ⟨e, he, ?_⟩
  rcases hrun.comparable hrun' with ⟨rest, rfl, hrest⟩ | ⟨rest, rfl, hrest⟩
  · refine Or.inl ⟨rest, ?_, hrest⟩
    rw [← hedits', ← hedits, List.map_append]
  · refine Or.inr ⟨rest, ?_, hrest⟩
    rw [← hedits', ← hedits, List.map_append]

/-- A run that has not used up its attempts ends where no further fix is kept. -/
theorem isFinished_fixAll {source : Text}
    (h : (fixRun parser c language source).kept.length < (analyze parser c language source).length) :
    IsFinished parser c language
      (Draft.ofSource parser c language (fixAll parser c language source)) := by
  obtain ⟨last, hrun, htext, -, hstop⟩ := exists_keptRun parser c language
    (analyze parser c language source).length (Draft.ofSource parser c language source)
  have hlast : last = Draft.ofSource parser c language (fixAll parser c language source) := by
    rw [hrun.eq_ofSource, ← htext]
    rfl
  rw [← hlast]
  exact hstop h

/-- Why a fix is kept under one configuration and not under another: it leaves more missing imports,
which are counted only under the other one. -/
theorem KeptFix.unbinds_of_isFinished (h : c.FixAlike c') {text after : Text} {a : Attempt}
    (hfix : KeptFix parser c' language (Draft.ofSource parser c' language text) a
      (Draft.ofSource parser c' language after))
    (hfinished : IsFinished parser c language (Draft.ofSource parser c language text)) :
    c.enables .missingImport = true ∧ c'.enables .missingImport = false ∧
      missingCount (analyze parser c language text)
        < missingCount (analyze parser c language after) := by
  have hlax : ¬c.IsLaxer c' := by
    intro hlax
    obtain ⟨b, -, hfix'⟩ := hfix.transfer h.symm hlax
    exact hfinished _ _ hfix'
  rw [RuleConfig.IsLaxer, Classical.not_imp, Bool.not_eq_true] at hlax
  refine ⟨hlax.1, hlax.2, Nat.lt_of_not_le fun hle => ?_⟩
  -- the count is all that can have kept the fix back
  obtain ⟨htarget, htried, hafter, hne, hparse, -⟩ := keptFix_ofSource_iff.mp hfix
  refine hfinished (attempt parser c language (Draft.ofSource parser c language text) a.target)
    (Draft.ofSource parser c language after) (keptFix_ofSource_iff.mpr ⟨?_, rfl, ?_, hne, hparse, hle⟩)
  · rw [h.symm.fixTarget?_analyze, htarget]
    rfl
  · rw [htried] at hafter
    exact hafter

/-- **What the severities of the other rules do to the fixes.** The kept fixes of one of the runs are the
first of the other, so both end alike exactly if they keep equally many. A run keeps fewer only for two
reasons: it has made as many attempts as it had findings, or it reports missing imports and the other
one does not, and the next fix leaves more of them. -/
theorem fixAll_severities (parser : Parser) {c c' : RuleConfig} (language : Language) (source : Text)
    (h : c.FixAlike c') :
    let run := fixRun parser c language source
    let run' := fixRun parser c' language source
    let fixed := fixAll parser c language source
    (run.kept.map Attempt.edit <+: run'.kept.map Attempt.edit ∨
      run'.kept.map Attempt.edit <+: run.kept.map Attempt.edit) ∧
    (fixed = fixAll parser c' language source ↔ run.kept.length = run'.kept.length) ∧
    (run.kept.length < run'.kept.length →
      run.kept.length = (analyze parser c language source).length ∨
      (c.enables .missingImport = true ∧ c'.enables .missingImport = false ∧
        ∃ a after, KeptFix parser c' language (Draft.ofSource parser c' language fixed) a
            (Draft.ofSource parser c' language after) ∧
          missingCount (analyze parser c language fixed)
            < missingCount (analyze parser c language after))) := by
  intro run run' fixed
  obtain ⟨e, he, hon⟩ := h.goesOn parser language source
  refine ⟨?_, ?_, ?_⟩
  · rcases hon with ⟨rest, hedits, -⟩ | ⟨rest, hedits, -⟩
    · exact Or.inl ⟨_, hedits.symm⟩
    · exact Or.inr ⟨_, hedits.symm⟩
  · rcases hon with hon | hon
    · exact hon.text_eq_iff
    · exact eq_comm.trans (hon.text_eq_iff.trans eq_comm)
  · intro hlt
    have hon := hon.resolve_right fun hon => absurd hon.length_le (Nat.not_le.mpr hlt)
    obtain ⟨a, after, hfix⟩ := hon.exists_keptFix hlt
    rcases Nat.lt_or_eq_of_le (length_kept_fixRun parser c language source) with hfewer | hbound
    · have hfinished := isFinished_fixAll hfewer
      rcases he with rfl | rfl
      · exact absurd hfix (hfinished _ _)
      · obtain ⟨hcounts, hignores, hmore⟩ := hfix.unbinds_of_isFinished h hfinished
        exact Or.inr ⟨hcounts, hignores, a, after, hfix, hmore⟩
    · exact Or.inl hbound

/-- The read of a member of a name of some width, `a.x;`, at an offset. -/
def shortRead (start width : Nat) : Node :=
  let stop := start + width
  shortNode "expression_statement" start (stop + 3) []
    [shortNode "member_expression" start (stop + 2) []
       [shortNode "identifier" start stop ["object"] [], shortToken "." stop (stop + 1),
        shortNode "property_identifier" (stop + 1) (stop + 2) ["property"] []],
     shortToken ";" (stop + 2) (stop + 3)]

/-- A parser of two programs. In the first the line of an unused import binds a used name; in the second
it has the only use of another import, and there is a read of a member further down. -/
def sharingImports : Parser :=
  shortParser
    [("import a from 'a'; import b from 'b';\nb();\n", [shortImport 0, shortImport 19, shortCall 38 1]),
     ("b();\n", [shortCall 0 1]),
     ("import a from 'a'; b();\nimport b from 'b';\nwindow.x;\n",
        [shortImport 0, shortCall 19 1, shortImport 24, shortRead 43 6]),
     ("import b from 'b';\nwindow.x;\n", [shortImport 0, shortRead 19 6]),
     ("window.x;\n", [shortRead 0 6])]

/-- Without reports about members there is one finding less, and so one attempt less. -/
theorem fixAll_severities_window :
    let source := "import a from 'a'; b();\nimport b from 'b';\nwindow.x;\n".toList
    let quiet := RuleConfig.withSeverity {} .nullAccess .off
    let run := fixRun sharingImports quiet .js source
    quiet.FixAlike {} ∧ run.kept.length < (fixRun sharingImports {} .js source).kept.length ∧
      run.kept.length = (analyze sharingImports quiet .js source).length := by
  intro source quiet run
  have halike : quiet.FixAlike {} := ⟨rfl, rfl, rfl⟩
  have hfewer : run.kept.length < (fixRun sharingImports {} .js source).kept.length := by
    decide +kernel
  refine ⟨halike, hfewer, ?_⟩
  rcases (fixAll_severities sharingImports .js source halike).2.2 hfewer with hbound | ⟨-, hignores, -⟩
  · exact hbound
  · exact absurd hignores (by decide)

/-- Without reports about missing imports the import of a used name is deleted, and without reports
about members an import that is no longer used is kept. -/
theorem fixAll_severities_ne :
    let source := "import a from 'a'; import b from 'b';\nb();\n".toList
    let other := "import a from 'a'; b();\nimport b from 'b';\nwindow.x;\n".toList
    let unguarded := RuleConfig.withSeverity {} .missingImport .off
    let quiet := RuleConfig.withSeverity {} .nullAccess .off
    (RuleConfig.FixAlike {} unguarded ∧ fixAll sharingImports {} .js source = source ∧
      fixAll sharingImports unguarded .js source = "b();\n".toList) ∧
    (RuleConfig.FixAlike {} quiet ∧ fixAll sharingImports {} .js other = "window.x;\n".toList ∧
      fixAll sharingImports quiet .js other = "import b from 'b';\nwindow.x;\n".toList) := by
  refine ⟨⟨⟨rfl, rfl, rfl⟩, ?_, ?_⟩, ⟨rfl, rfl, rfl⟩, ?_, ?_⟩
  · decide +kernel
  · decide +kernel
  · decide +kernel
  · decide +kernel

end PatchLint
