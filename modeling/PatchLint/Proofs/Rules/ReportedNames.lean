import PatchLint.Proofs.Rules.Findings
import PatchLint.Proofs.Scope.Consistency

/-!
# Names in findings

The scope of a tree is the result of a run of steps, so its collections agree
(`consistent_scopeOf`). The findings that are made of them agree as well: a name that is reported as an
unused import is declared, so it is not reported as a missing one, and the imports name it once, so it is
reported once (`NamesAgree`).
-/

namespace PatchLint

variable {c : RuleConfig} {source : List UInt8} {root : Node} {name : String}

/-! ## Reports of names -/

namespace Diagnostic

/-- Whether a finding reports a name as an import without a use. -/
def ReportsUnused (name : String) (d : Diagnostic) : Prop :=
  d.ruleId = Rule.unusedImport.code ∧ d.message = "Unused import: '" ++ name ++ "'"

/-- Whether a finding reports a name as one that lacks an import. -/
def ReportsMissing (name : String) (d : Diagnostic) : Prop :=
  d.ruleId = Rule.missingImport.code ∧ d.message = "Missing import for '" ++ name ++ "'"

instance (name : String) (d : Diagnostic) : Decidable (d.ReportsUnused name) :=
  inferInstanceAs (Decidable (_ ∧ _))

end Diagnostic

/-- Whether findings agree about names: none is reported both as an unused import and as a missing one,
and none more than once as an unused import. -/
structure NamesAgree (found : List Diagnostic) : Prop where
  not_both : ∀ name, ¬((∃ d ∈ found, d.ReportsUnused name) ∧ ∃ d ∈ found, d.ReportsMissing name)
  unused_once : ∀ name, (found.filter (·.ReportsUnused name)).length ≤ 1

/-! ## The scope of a tree -/

theorem consistent_scopeOf (source : List UInt8) (root : Node) :
    (scopeOf source root).Consistent := by
  rw [scopeOf_eq_scopeAfter, scopeAfter_eq]
  exact Scope.consistent_performAll _

/-! ## What the findings say about the scope -/

/-- The messages about unused imports in a tree are those of different names. -/
theorem nodup_messages_unusedImport (c : RuleConfig) (source : List UInt8) (root : Node) :
    (((analyzeTree c source root).filter (·.ruleId = Rule.unusedImport.code)).map
      (·.message)).Nodup := by
  have hinjective : Function.Injective fun name : String => "Unused import: '" ++ name ++ "'" := by
    intro name name' h
    simpa using h
  have hvisit : ((fronted [] (preorder [] root)).flatMap fun item =>
      Rule.unusedImport.visit c source (scopeAfter source (item.1 ++ [item.2])) item.2) = [] :=
    List.flatMap_eq_nil_iff.mpr fun _ _ => rfl
  rw [filter_code_analyzeTree, hvisit]
  split
  · show ((unusedImports c (scopeOf source root)).map (·.message)).Nodup
    have hmessages : (unusedImports c (scopeOf source root)).map (·.message)
        = (((scopeOf source root).imports.filter fun item =>
            !(scopeOf source root).used.contains item.1
              && !(scopeOf source root).typeReferences.contains item.1).map (·.1)).map
          fun name => "Unused import: '" ++ name ++ "'" := by
      rw [unusedImports, List.map_map, List.map_map]
      rfl
    have hnames := (consistent_scopeOf source root).imported_nodup
    rw [hmessages]
    exact (hnames.sublist (List.filter_sublist.map _)).map hinjective
  · exact List.nodup_nil

theorem mem_imported_of_reportsUnused {d : Diagnostic} (h : d ∈ analyzeTree c source root)
    (hname : d.ReportsUnused name) : name ∈ (scopeOf source root).imported := by
  obtain ⟨item, hitem, rfl⟩ := List.mem_map.mp (mem_unusedImports_of_code c source h hname.1)
  have hmessage : "Unused import: '" ++ item.1 ++ "'" = "Unused import: '" ++ name ++ "'" := hname.2
  have heq : item.1 = name := by simpa using hmessage
  rw [← heq]
  exact List.mem_map_of_mem (List.mem_of_mem_filter hitem)

theorem not_mem_declared_of_reportsMissing {d : Diagnostic} (h : d ∈ analyzeTree c source root)
    (hname : d.ReportsMissing name) : name ∉ (scopeOf source root).declared := by
  obtain ⟨item, hitem, h⟩ := List.mem_flatMap.mp (mem_missingImports_of_code c source h hname.1)
  obtain ⟨offset, -, rfl⟩ := List.mem_map.mp h
  have hmessage : "Missing import for '" ++ item.1 ++ "'" = "Missing import for '" ++ name ++ "'" :=
    hname.2
  have heq : item.1 = name := by simpa using hmessage
  have hundefined := (List.mem_filter.mp hitem).2
  rw [← heq]
  intro hdeclared
  simp [isDefined, Scope.isDeclared, hdeclared] at hundefined

/-- **The findings in a tree agree about names.** -/
theorem namesAgree_analyzeTree (c : RuleConfig) (source : List UInt8) (root : Node) :
    NamesAgree (analyzeTree c source root) where
  not_both := by
    rintro name ⟨⟨d, hd, hunused⟩, ⟨d', hd', hmissing⟩⟩
    have himported := mem_imported_of_reportsUnused hd hunused
    exact not_mem_declared_of_reportsMissing hd' hmissing
      ((consistent_scopeOf source root).imported_subset himported)
  unused_once := by
    intro name
    have hreports : (analyzeTree c source root).filter (·.ReportsUnused name)
        = ((analyzeTree c source root).filter (·.ruleId = Rule.unusedImport.code)).filter
            (·.message = "Unused import: '" ++ name ++ "'") := by
      rw [List.filter_filter]
      refine List.filter_congr fun d _ => ?_
      simp [Diagnostic.ReportsUnused, and_comm]
    have honce := List.nodup_iff_count_le_one.mp (nodup_messages_unusedImport c source root)
      ("Unused import: '" ++ name ++ "'")
    rw [hreports, ← List.countP_eq_length_filter]
    rw [List.count, List.countP_map] at honce
    simpa only [Function.comp_def, beq_eq_decide] using honce

theorem namesAgree_analyze (parser : Parser) (c : RuleConfig) (language : Language) (source : Text) :
    NamesAgree (analyze parser c language source) := by
  rw [analyze]
  split
  · refine ⟨fun name h => ?_, fun name => Nat.zero_le 1⟩
    obtain ⟨⟨d, hd, -⟩, -⟩ := h
    cases hd
  · exact namesAgree_analyzeTree c _ _

/-- **The collections of a scope agree after any run, and so do the findings.**

* After any run of steps the declared names are those with an offset, the imported ones are among them,
  the first declaration of a name decides its offset, the last import its binding, and all its
  references are kept, in the order of their steps.
* No analysis reports a name both as an unused import and as a missing one, nor twice as an unused
  import. -/
theorem scope_and_findings_agree :
    (∀ steps : List ScopeStep,
      let s := ({} : Scope).performAll steps
      s.Consistent ∧
        s.declarations = Scope.tableOf List.head? (steps.filterMap ScopeStep.declaredAt?) ∧
        s.imports = Scope.tableOf List.getLast? (steps.filterMap ScopeStep.imported?) ∧
        s.references = Scope.tableOf Scope.offsetsOf (steps.filterMap ScopeStep.referenced?)) ∧
      (∀ c source root, NamesAgree (analyzeTree c source root)) ∧
      ∀ parser c language source, NamesAgree (analyze parser c language source) := by
  refine ⟨fun steps => ⟨Scope.consistent_performAll steps, Scope.declarations_performAll steps,
    Scope.imports_performAll steps, Scope.references_performAll steps⟩, ?_, ?_⟩
  · exact namesAgree_analyzeTree
  · exact namesAgree_analyze

end PatchLint
