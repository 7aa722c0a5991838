import PatchLint.Proofs.Rules.Findings

/-!
# What the configuration does to the findings

What can be found in a tree does not depend on the configuration (`possibleFindings`). A configuration
only selects from it (`RuleConfig.reports`) and puts its severities on what is left
(`RuleConfig.report`).

* `analyzeTree_eq_reported` — the analysis is this selection, whatever rules run
* `RuleConfig.reported_of_reports` — so a configuration that selects less takes away just this
* `analyzeTree_configured` — what switching a rule off, another severity and further names do

A finding knows the name it is about. The diagnostic made of it does not: two names can have the same
message if they hold quotes and dots, as the text of a node in an arbitrary tree may.
-/

namespace PatchLint

/-! ## What can be found -/

/-- Something that a rule can find: the name it is about, if it is about one, the message and the
place. -/
structure Finding where
  rule : Rule
  subject : String
  message : String
  start : Nat
  stop : Nat
  deriving DecidableEq, Repr

/-- What a rule can find at a node, with the scope as far as it is known. -/
def Rule.possibleAt (r : Rule) (source : List UInt8) (s : Scope) (v : Visit) : List Finding :=
  match r with
  | .nullAccess =>
    match memberRead? v.node with
    | none => []
    | some (object, property) =>
      let name := object.text source
      if s.isDeclared name || safeBases.contains name then []
      else
        [⟨.nullAccess, name, nullAccessMessage name (property.text source), v.node.start,
          v.node.stop⟩]
  | .missingAwait =>
    if isThenCall source v.node && !v.ancestors.any (·.kind == "await_expression")
      && ((nearestFunction? v.ancestors).map isAsync).getD false
    then
      [⟨.missingAwait, "", "Missing await on promise in async function", v.node.start, v.node.stop⟩]
    else []
  | _ => []

/-- What a rule can find in the finished scope. -/
def Rule.possibleIn (r : Rule) (s : Scope) : List Finding :=
  match r with
  | .unusedImport =>
    (s.imports.filter fun (name, _) =>
        !s.used.contains name && !s.typeReferences.contains name).map fun (name, binding) =>
      ⟨.unusedImport, name, "Unused import: '" ++ name ++ "'", binding.start, binding.stop⟩
  | .missingImport =>
    (s.references.filter fun (name, _) => !(s.isDeclared name || knownGlobals.contains name)).flatMap
      fun (name, offsets) => offsets.map fun offset =>
        ⟨.missingImport, name, "Missing import for '" ++ name ++ "'", offset,
          offset + nameWidth name⟩
  | _ => []

/-- What can be found in a tree, at the nodes in pre-order and then in the scope of all nodes. -/
def possibleFindings (source : List UInt8) (root : Node) : List Finding :=
  ((fronted [] (preorder [] root)).flatMap fun item => Rule.all.flatMap fun r =>
    r.possibleAt source (scopeAfter source (item.1 ++ [item.2])) item.2)
  ++ Rule.all.flatMap fun r => r.possibleIn (scopeAfter source (preorder [] root))

/-! ## What is reported -/

namespace RuleConfig

/-- Whether the name of a finding is one that the configuration adds for its rule. -/
def excuses (c : RuleConfig) (f : Finding) : Bool :=
  match f.rule with
  | .nullAccess => c.allow.contains f.subject
  | .missingImport => c.globals.contains f.subject
  | _ => false

/-- Whether a finding is reported. -/
def reports (c : RuleConfig) (f : Finding) : Bool := c.enables f.rule && !c.excuses f

/-- A finding as it is reported. -/
def report (c : RuleConfig) (f : Finding) : Diagnostic :=
  c.diagnostic f.rule f.message f.start f.stop

/-- The findings in a tree that are reported. -/
def reported (c : RuleConfig) (source : List UInt8) (root : Node) : List Finding :=
  (possibleFindings source root).filter c.reports

/-- The configuration with another severity for a rule. -/
def withSeverity (c : RuleConfig) (r : Rule) (severity : Severity) : RuleConfig :=
  { c with severity := fun r' => if r' = r then severity else c.severity r' }

end RuleConfig

variable {c c' : RuleConfig} {source : List UInt8} {root : Node}

theorem rule_of_mem_possibleAt {r : Rule} {s : Scope} {v : Visit} {f : Finding}
    (h : f ∈ r.possibleAt source s v) : f.rule = r := by
  cases r with
  | unusedImport | missingImport => cases h
  | nullAccess =>
    rw [Rule.possibleAt] at h
    split at h
    · cases h
    · dsimp only at h
      split at h
      · cases h
      · rw [List.mem_singleton.mp h]
  | missingAwait =>
    rw [Rule.possibleAt] at h
    split at h
    · rw [List.mem_singleton.mp h]
    · cases h

theorem rule_of_mem_possibleIn {r : Rule} {s : Scope} {f : Finding} (h : f ∈ r.possibleIn s) :
    f.rule = r := by
  cases r with
  | unusedImport =>
    obtain ⟨item, -, rfl⟩ := List.mem_map.mp h
    rfl
  | missingImport =>
    obtain ⟨item, -, h⟩ := List.mem_flatMap.mp h
    obtain ⟨offset, -, rfl⟩ := List.mem_map.mp h
    rfl
  | nullAccess | missingAwait => cases h

/-! ## Selection -/

/-- Findings about one name are excused together. -/
theorem filter_excuses {excused : Bool} {fs : List Finding} (h : ∀ f ∈ fs, c.excuses f = excused) :
    (fs.filter fun f => !c.excuses f) = if excused then [] else fs := by
  cases excused with
  | true =>
    refine List.filter_eq_nil_iff.mpr fun f hf => ?_
    rw [h f hf]
    decide
  | false =>
    refine List.filter_eq_self.mpr fun f hf => ?_
    rw [h f hf]
    rfl

/-- What a rule reports at a node is selected from what it can find there. -/
theorem visit_eq_possibleAt (c : RuleConfig) (r : Rule) (s : Scope) (v : Visit) :
    r.visit c source s v
      = ((r.possibleAt source s v).filter fun f => !c.excuses f).map c.report := by
  cases r with
  | unusedImport | missingImport => rfl
  | nullAccess =>
    show visitMember c source s v.node = _
    rw [visitMember, Rule.possibleAt]
    cases memberRead? v.node with
    | none => rfl
    | some read =>
      obtain ⟨object, property⟩ := read
      dsimp only
      cases s.isDeclared (object.text source) || safeBases.contains (object.text source) with
      | true => rfl
      | false =>
        rw [Bool.false_or, if_neg Bool.false_ne_true, filter_excuses (List.forall_mem_singleton.mpr rfl)]
        cases hallow : c.allow.contains (object.text source) with
        | true => simp only [RuleConfig.excuses, hallow, if_true, List.map_nil]
        | false => simp only [RuleConfig.excuses, hallow, Bool.false_eq_true, if_false]; rfl
  | missingAwait =>
    show visitCall c source v = _
    rw [visitCall, Rule.possibleAt]
    split
    · rfl
    · rfl

/-- What a rule reports in the finished scope is selected from what it can find there. -/
theorem finish_eq_possibleIn (c : RuleConfig) (r : Rule) (s : Scope) :
    r.finish c s = ((r.possibleIn s).filter fun f => !c.excuses f).map c.report := by
  cases r with
  | nullAccess | missingAwait => rfl
  | unusedImport =>
    show unusedImports c s = _
    rw [unusedImports, Rule.possibleIn, List.filter_map, List.map_map, List.filter_filter]
    rfl
  | missingImport =>
    show missingImports c s = _
    rw [missingImports, Rule.possibleIn]
    dsimp only
    induction s.references with
    | nil => rfl
    | cons item items ih =>
      obtain ⟨name, offsets⟩ := item
      have hdefined : isDefined c s name
          = ((s.isDeclared name || knownGlobals.contains name) || c.globals.contains name) := rfl
      rw [List.filter_cons, List.filter_cons, hdefined]
      cases s.isDeclared name || knownGlobals.contains name with
      | true => exact ih
      | false =>
        -- all findings of this entry are about one name
        have hexcuses : ∀ f ∈ offsets.map fun offset => (⟨.missingImport, name,
            "Missing import for '" ++ name ++ "'", offset, offset + nameWidth name⟩ : Finding),
            c.excuses f = c.globals.contains name := by
          intro f hf
          obtain ⟨offset, -, rfl⟩ := List.mem_map.mp hf
          rfl
        rw [Bool.false_or, Bool.not_false, if_pos rfl, List.flatMap_cons, List.filter_append,
          List.map_append, filter_excuses hexcuses, ← ih]
        cases c.globals.contains name with
        | true => rfl
        | false =>
          rw [Bool.not_false, if_pos rfl, if_neg Bool.false_ne_true, List.flatMap_cons, List.map_map]
          rfl

/-- What the rules that run report is selected from what all rules can find. -/
theorem flatMap_enabledRules {found : Rule → List Diagnostic} {possible : Rule → List Finding}
    (hrule : ∀ r, ∀ f ∈ possible r, f.rule = r)
    (hfound : ∀ r, found r = ((possible r).filter fun f => !c.excuses f).map c.report) :
    c.enabledRules.flatMap found = ((Rule.all.flatMap possible).filter c.reports).map c.report := by
  rw [RuleConfig.enabledRules]
  induction Rule.all with
  | nil => rfl
  | cons r rules ih =>
    have hreports : (possible r).filter c.reports
        = if c.enables r then (possible r).filter fun f => !c.excuses f else [] := by
      cases henables : c.enables r with
      | true =>
        refine List.filter_congr fun f hf => ?_
        rw [RuleConfig.reports, hrule r f hf, henables, Bool.true_and]
      | false =>
        refine List.filter_eq_nil_iff.mpr fun f hf => ?_
        rw [RuleConfig.reports, hrule r f hf, henables, Bool.false_and]
        exact Bool.false_ne_true
    rw [List.filter_cons, List.flatMap_cons, List.filter_append, List.map_append, ← ih, hreports]
    cases c.enables r with
    | true => rw [if_pos rfl, if_pos rfl, List.flatMap_cons, hfound]
    | false => rfl

/-- **The analysis selects from what can be found,** whatever rules run. -/
theorem analyzeTree_eq_reported (c : RuleConfig) (source : List UInt8) (root : Node) :
    analyzeTree c source root = (c.reported source root).map c.report := by
  rw [analyzeTree_eq, RuleConfig.reported, possibleFindings, List.filter_append, List.map_append,
    List.filter_flatMap, List.map_flatMap]
  refine congrArg₂ _ (List.flatMap_congr fun item _ => ?_) ?_
  · exact flatMap_enabledRules (fun r f hf => rule_of_mem_possibleAt hf)
      fun r => visit_eq_possibleAt c r _ _
  · exact flatMap_enabledRules (fun r f hf => rule_of_mem_possibleIn hf)
      fun r => finish_eq_possibleIn c r _

/-! ## Two configurations -/

namespace RuleConfig

/-- A configuration that reports less takes away just this. -/
theorem reported_of_reports {keep : Finding → Bool}
    (h : ∀ f, c'.reports f = (c.reports f && keep f)) :
    c'.reported source root = (c.reported source root).filter keep := by
  rw [reported, reported, List.filter_filter]
  refine List.filter_congr fun f _ => ?_
  rw [h, Bool.and_comm]

theorem ruleId_report_eq_iff {f : Finding} {r : Rule} : (c.report f).ruleId = r.code ↔ f.rule = r :=
  ⟨fun h => Rule.eq_of_code_eq h, fun h => congrArg Rule.code h⟩

/-- The severity of a rule governs only its own findings. -/
theorem report_withSeverity (c : RuleConfig) (r : Rule) (severity : Severity) (f : Finding) :
    (c.withSeverity r severity).report f
      = if f.rule = r then { c.report f with severity := severity } else c.report f := by
  by_cases hrule : f.rule = r
  · rw [if_pos hrule, report, diagnostic, withSeverity]
    dsimp only
    rw [if_pos hrule]
    rfl
  · rw [if_neg hrule, report, diagnostic, withSeverity]
    dsimp only
    rw [if_neg hrule]
    rfl

theorem enables_withSeverity (c : RuleConfig) (r : Rule) (severity : Severity) (r' : Rule) :
    (c.withSeverity r severity).enables r'
      = if r' = r then severity != .off else c.enables r' := by
  rw [enables, withSeverity]
  dsimp only
  split
  · rfl
  · rfl

/-- **A rule that is switched off takes its findings away,** and no others. -/
theorem analyzeTree_off (c : RuleConfig) (r : Rule) (source : List UInt8) (root : Node) :
    analyzeTree (c.withSeverity r .off) source root
      = (analyzeTree c source root).filter fun d => d.ruleId ≠ r.code := by
  have hreports (f : Finding) :
      (c.withSeverity r .off).reports f = (c.reports f && decide (f.rule ≠ r)) := by
    rw [reports, enables_withSeverity]
    by_cases hrule : f.rule = r
    · simp [hrule]
    · rw [if_neg hrule, decide_eq_true hrule, Bool.and_true]
      rfl
  rw [analyzeTree_eq_reported, analyzeTree_eq_reported, reported_of_reports hreports, List.filter_map]
  have hkeep : ((fun d : Diagnostic => decide (d.ruleId ≠ r.code)) ∘ c.report)
      = fun f => decide (f.rule ≠ r) := by
    funext f
    exact decide_eq_decide.mpr (not_congr ruleId_report_eq_iff)
  rw [hkeep]
  refine List.map_congr_left fun f hf => ?_
  rw [report_withSeverity, if_neg (of_decide_eq_true (List.mem_filter.mp hf).2)]

/-- **Another severity is put on the findings of its rule,** and nothing else changes. -/
theorem analyzeTree_relabeled {r : Rule} {severity : Severity} (hc : c.enables r = true)
    (hon : severity ≠ .off) (source : List UInt8) (root : Node) :
    analyzeTree (c.withSeverity r severity) source root
      = (analyzeTree c source root).map fun d =>
          if d.ruleId = r.code then { d with severity := severity } else d := by
  have hreports (f : Finding) : (c.withSeverity r severity).reports f = (c.reports f && true) := by
    rw [reports, reports, enables_withSeverity, Bool.and_true]
    by_cases hrule : f.rule = r
    · rw [if_pos hrule, hrule, hc, bne_iff_ne.mpr hon]
      rfl
    · rw [if_neg hrule]
      rfl
  rw [analyzeTree_eq_reported, analyzeTree_eq_reported, reported_of_reports hreports,
    List.filter_true, List.map_map]
  refine List.map_congr_left fun f _ => ?_
  rw [report_withSeverity, Function.comp_apply]
  exact if_congr ruleId_report_eq_iff.symm rfl rfl

/-- A configuration that excuses more reports less by just this. -/
theorem reported_of_excuses {more : Finding → Prop} [DecidablePred more]
    (henables : c'.severity = c.severity)
    (h : ∀ f, c'.excuses f = (c.excuses f || decide (more f))) :
    c'.reported source root = (c.reported source root).filter fun f => ¬more f := by
  refine reported_of_reports fun f => ?_
  rw [reports, reports, enables, enables, henables, h, Bool.not_or, ← Bool.and_assoc, decide_not]

/-- **Further names that count as defined take away the findings about them.** -/
theorem reported_globals (c : RuleConfig) (names : List String) (source : List UInt8) (root : Node) :
    ({ c with globals := c.globals ++ names } : RuleConfig).reported source root
      = (c.reported source root).filter fun f =>
          ¬(f.rule = .missingImport ∧ f.subject ∈ names) := by
  refine reported_of_excuses rfl fun f => ?_
  rw [excuses, excuses]
  cases f.rule with
  | missingImport => simp
  | unusedImport | nullAccess | missingAwait => simp

/-- **Further names whose members may be read take away the findings about them.** -/
theorem reported_allow (c : RuleConfig) (names : List String) (source : List UInt8) (root : Node) :
    ({ c with allow := c.allow ++ names } : RuleConfig).reported source root
      = (c.reported source root).filter fun f => ¬(f.rule = .nullAccess ∧ f.subject ∈ names) := by
  refine reported_of_excuses rfl fun f => ?_
  rw [excuses, excuses]
  cases f.rule with
  | nullAccess => simp
  | unusedImport | missingImport | missingAwait => simp

/-- A finding about a missing import names its subject. -/
theorem message_of_missingImport {f : Finding} (h : f ∈ c.reported source root)
    (hrule : f.rule = .missingImport) : f.message = "Missing import for '" ++ f.subject ++ "'" := by
  have hpossible := (List.mem_filter.mp h).1
  rw [possibleFindings, List.mem_append] at hpossible
  rcases hpossible with h | h
  · obtain ⟨item, -, h⟩ := List.mem_flatMap.mp h
    obtain ⟨r, -, h⟩ := List.mem_flatMap.mp h
    obtain rfl := (rule_of_mem_possibleAt h).symm.trans hrule
    cases h
  · obtain ⟨r, -, h⟩ := List.mem_flatMap.mp h
    obtain rfl := (rule_of_mem_possibleIn h).symm.trans hrule
    obtain ⟨item, -, h⟩ := List.mem_flatMap.mp h
    obtain ⟨offset, -, rfl⟩ := List.mem_map.mp h
    rfl

theorem analyzeTree_globals (c : RuleConfig) (names : List String) (source : List UInt8)
    (root : Node) :
    analyzeTree { c with globals := c.globals ++ names } source root
      = (analyzeTree c source root).filter fun d => ¬(d.ruleId = Rule.missingImport.code
          ∧ ∃ name ∈ names, d.message = "Missing import for '" ++ name ++ "'") := by
  rw [analyzeTree_eq_reported, analyzeTree_eq_reported, reported_globals, List.filter_map]
  refine congrArg (List.map c.report) (List.filter_congr fun f hf => ?_)
  refine decide_eq_decide.mpr (not_congr ?_)
  rw [ruleId_report_eq_iff]
  refine and_congr_right fun hrule => ?_
  -- the message tells the name, as all around it is fixed
  have hmessage : (c.report f).message = "Missing import for '" ++ f.subject ++ "'" :=
    message_of_missingImport hf hrule
  constructor
  · intro hname
    exact ⟨f.subject, hname, hmessage⟩
  · rintro ⟨name, hname, heq⟩
    have hsubject : f.subject = name := by simpa using hmessage.symm.trans heq
    rwa [hsubject]

end RuleConfig

/-! ## All together -/

/-- **The configuration only selects and labels.** In any tree,

* a rule that is switched off takes its own findings away,
* another severity of a rule that runs is put on its findings, and nothing else changes,
* further defined names take away the findings about missing imports of these names,
* further names whose members may be read take away the findings about reads of their members. -/
theorem analyzeTree_configured (c : RuleConfig) (source : List UInt8) (root : Node) :
    (∀ r, analyzeTree (c.withSeverity r .off) source root
      = (analyzeTree c source root).filter fun d => d.ruleId ≠ r.code) ∧
    (∀ r severity, c.enables r = true → severity ≠ .off →
      analyzeTree (c.withSeverity r severity) source root
        = (analyzeTree c source root).map fun d =>
            if d.ruleId = r.code then { d with severity := severity } else d) ∧
    (∀ names, analyzeTree { c with globals := c.globals ++ names } source root
      = (analyzeTree c source root).filter fun d => ¬(d.ruleId = Rule.missingImport.code
          ∧ ∃ name ∈ names, d.message = "Missing import for '" ++ name ++ "'")) ∧
    analyzeTree c source root = (c.reported source root).map c.report ∧
    (∀ names, analyzeTree { c with allow := c.allow ++ names } source root
      = ((c.reported source root).filter fun f =>
          ¬(f.rule = .nullAccess ∧ f.subject ∈ names)).map c.report) := by
  refine ⟨fun r => c.analyzeTree_off r source root,
    fun r severity hc hon => RuleConfig.analyzeTree_relabeled hc hon source root,
    fun names => c.analyzeTree_globals names source root, analyzeTree_eq_reported c source root,
    fun names => ?_⟩
  rw [analyzeTree_eq_reported, RuleConfig.reported_allow]
  rfl

/-- The sample with reads of members as errors, and with `x` as a name whose members may be read. -/
theorem analyzeTree_configured_sample :
    ({} : RuleConfig).enables .nullAccess = true ∧ Severity.error ≠ .off ∧
      (analyzeTree (RuleConfig.withSeverity {} .nullAccess .error) sampleSource sampleTree).map
          (fun d => (d.ruleId, d.start, d.severity))
        = [("R4", 31, .warning), ("R3", 31, .error), ("R1", 0, .info), ("R2", 31, .error),
            ("R2", 38, .error)] ∧
      (analyzeTree { allow := ["x"] } sampleSource sampleTree).map (fun d => (d.ruleId, d.start))
        = [("R4", 31), ("R1", 0), ("R2", 31), ("R2", 38)] := by
  obtain ⟨-, hseverity, -, -, hallow⟩ := analyzeTree_configured {} sampleSource sampleTree
  have henables : ({} : RuleConfig).enables .nullAccess = true := by decide
  refine ⟨henables, by decide, ?_, ?_⟩
  · rw [hseverity .nullAccess .error henables (by decide)]
    decide +kernel
  · have hx := hallow ["x"]
    rw [List.nil_append] at hx
    rw [hx]
    decide +kernel

end PatchLint
