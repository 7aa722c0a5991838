import PatchLint.Proofs.Scope.Visited
import PatchLint.Proofs.Tree.Preorder
import PatchLint.Rules.Analysis

/-!
# What the rules find, rule by rule

The analysis is one walk that fills a scope while the rules look on. Here each rule is told by itself,
about the nodes of the tree in pre-order with their true paths (`preorder`):

* `memberFindings` — reads of members of names that no node so far declares
* `promiseFindings` — calls of `then` in an asynchronous function that nothing on the path awaits
* `unusedImportFindings` — imported names without a use anywhere, as a value or as a type
* `missingImportFindings` — uses of names that no node declares and that are not known

`analyzeTree_eq` holds for every configuration: the findings are those of the rules at each node, with
the scope up to this node, followed by those of the rules with the scope of all nodes.
`analyzeTree_eq_findings` puts in what each rule finds. Read the other way, a finding comes from the rule
whose code it carries (`mem_analyzeTree_of_code`), and one that a rule has made at a node has the span of
this node (`eq_diagnostic_of_mem_visit`).
-/

namespace PatchLint

open Node

variable (c : RuleConfig) (source : List UInt8)

/-! ## The walk -/

/-- **The walk of the survey.** At every node the rules see the scope up to and including it. -/
theorem foldl_step_eq (visits front : List Visit) (found : List Diagnostic) :
    visits.foldl (Survey.step c source) ⟨scopeAfter source front, found⟩
      = ⟨scopeAfter source (front ++ visits),
          found ++ (fronted front visits).flatMap fun item => c.enabledRules.flatMap fun r =>
            r.visit c source (scopeAfter source (item.1 ++ [item.2])) item.2⟩ := by
  induction visits generalizing front found with
  | nil => rw [List.append_nil, fronted, List.flatMap_nil, List.append_nil]; rfl
  | cons v visits ih =>
    rw [List.foldl_cons, Survey.step]
    dsimp only
    -- the node is recorded before the rules look at it
    rw [← scopeAfter_concat, ih, fronted, List.flatMap_cons, List.append_assoc, List.append_assoc]
    rfl

/-- **The findings in a tree,** for any rules that run. -/
theorem analyzeTree_eq (root : Node) :
    analyzeTree c source root
      = ((fronted [] (preorder [] root)).flatMap fun item => c.enabledRules.flatMap fun r =>
          r.visit c source (scopeAfter source (item.1 ++ [item.2])) item.2)
        ++ c.enabledRules.flatMap fun r => r.finish c (scopeAfter source (preorder [] root)) := by
  have hwalk := foldl_step_eq c source (preorder [] root) [] []
  rw [List.nil_append, List.nil_append] at hwalk
  have hstart : ({} : Survey) = ⟨scopeAfter source [], []⟩ := rfl
  rw [analyzeTree, walk_eq_preorder, hstart, hwalk]

theorem enabledRules_eq_all {c : RuleConfig} (h : ∀ r, c.enables r = true) :
    c.enabledRules = Rule.all :=
  List.filter_eq_self.mpr fun r _ => h r

/-! ## Member reads -/

/-- Whether one of some visited nodes declares a name. -/
def DeclaredIn (visits : List Visit) (name : String) : Prop :=
  ∃ v ∈ visits, name ∈ declaredNames source v

instance (visits : List Visit) (name : String) : Decidable (DeclaredIn source visits name) :=
  inferInstanceAs (Decidable (∃ v ∈ visits, name ∈ declaredNames source v))

/-- What is found at a read of a member, behind some other nodes: the read is not guarded, and neither
an allow-list holds its name nor a node so far declares it. -/
def memberFindings (front : List Visit) (v : Visit) : List Diagnostic :=
  match v.node.field? "object", v.node.field? "property" with
  | some object, some property =>
    let name := object.text source
    if v.node.kind = "member_expression" ∧ object.kind = "identifier"
      ∧ property.kind = "property_identifier"
      ∧ (∀ child ∈ v.node.children, child.kind ≠ "optional_chain")
      ∧ name ∉ safeBases ∧ name ∉ c.allow ∧ ¬DeclaredIn source (front ++ [v]) name
    then
      [c.diagnostic .nullAccess (nullAccessMessage name (property.text source))
        v.node.start v.node.stop]
    else []
  | _, _ => []

theorem isDeclared_scopeAfter (visits : List Visit) (name : String) :
    (scopeAfter source visits).isDeclared name = decide (DeclaredIn source visits name) := by
  rw [Scope.isDeclared, Bool.eq_iff_iff, List.contains_iff_mem, mem_declared_scopeAfter,
    decide_eq_true_iff]
  rfl

theorem isSafe_iff (visits : List Visit) (name : String) :
    ((scopeAfter source visits).isDeclared name || safeBases.contains name
        || c.allow.contains name) = true
      ↔ ¬(name ∉ safeBases ∧ name ∉ c.allow ∧ ¬DeclaredIn source visits name) := by
  rw [isDeclared_scopeAfter, Bool.or_eq_true, Bool.or_eq_true, decide_eq_true_iff,
    List.contains_iff_mem, List.contains_iff_mem]
  tauto

/-- A member is read of a bare name, without a guard. -/
theorem memberRead?_of_fields {n object property : Node} (hobject : n.field? "object" = some object)
    (hproperty : n.field? "property" = some property) :
    memberRead? n
      = if n.kind = "member_expression" ∧ object.kind = "identifier"
          ∧ property.kind = "property_identifier"
          ∧ (∀ child ∈ n.children, child.kind ≠ "optional_chain")
        then some (object, property) else none := by
  rw [memberRead?, hobject, hproperty]
  by_cases hkind : n.kind = "member_expression"
  · rw [if_pos hkind]
    refine if_congr ?_ rfl rfl
    simp [hkind, and_assoc]
  · rw [if_neg hkind, if_neg fun h => hkind h.1]

theorem visitMember_eq (front : List Visit) (v : Visit) :
    visitMember c source (scopeAfter source (front ++ [v])) v.node
      = memberFindings c source front v := by
  have hnone (h : v.node.field? "object" = none ∨ v.node.field? "property" = none) :
      memberRead? v.node = none := by
    rw [memberRead?]
    rcases h with h | h <;> simp [h]
  rw [visitMember, memberFindings]
  cases hobject : v.node.field? "object" with
  | none => rw [hnone (Or.inl hobject)]
  | some object =>
    cases hproperty : v.node.field? "property" with
    | none => rw [hnone (Or.inr hproperty)]
    | some property =>
      rw [memberRead?_of_fields hobject hproperty]
      by_cases hread : v.node.kind = "member_expression" ∧ object.kind = "identifier"
          ∧ property.kind = "property_identifier"
          ∧ ∀ child ∈ v.node.children, child.kind ≠ "optional_chain"
      · rw [if_pos hread]
        dsimp only
        have hsafe := isSafe_iff c source (front ++ [v]) (object.text source)
        by_cases hs : object.text source ∉ safeBases ∧ object.text source ∉ c.allow
            ∧ ¬DeclaredIn source (front ++ [v]) (object.text source)
        · rw [if_neg fun h => hsafe.mp h hs,
            if_pos ⟨hread.1, hread.2.1, hread.2.2.1, hread.2.2.2, hs⟩]
        · rw [if_pos (hsafe.mpr hs), if_neg fun h => hs h.2.2.2.2]
      · -- what is no such read is not reported, whatever is declared
        rw [if_neg hread]
        exact (if_neg fun h => hread ⟨h.1, h.2.1, h.2.2.1, h.2.2.2.1⟩).symm

/-! ## Promises -/

/-- Whether a node is a call of `then` on something. -/
def CallsThen (n : Node) : Prop :=
  n.kind = "call_expression" ∧ ∃ callee ∈ n.field? "function", callee.kind = "member_expression"
    ∧ ∃ property ∈ callee.field? "property", property.text source = "then"

/-- Whether the deepest function on a path is asynchronous. -/
def InAsyncFunction (path : List Node) : Prop :=
  ∃ function ∈ (path.filter (functionKinds.contains ·.kind)).getLast?,
    ∃ child ∈ function.children, child.kind = "async"

instance (n : Node) : Decidable (CallsThen source n) := by
  unfold CallsThen
  infer_instance

instance (path : List Node) : Decidable (InAsyncFunction path) :=
  inferInstanceAs (Decidable (∃ function ∈ (path.filter (functionKinds.contains ·.kind)).getLast?,
    ∃ child ∈ function.children, child.kind = "async"))

/-- What is found at a call of `then`: nothing on its path awaits it, although it could. -/
def promiseFindings (v : Visit) : List Diagnostic :=
  if CallsThen source v.node ∧ (∀ a ∈ v.ancestors, a.kind ≠ "await_expression")
    ∧ InAsyncFunction v.ancestors
  then
    [c.diagnostic .missingAwait "Missing await on promise in async function"
      v.node.start v.node.stop]
  else []

theorem isThenCall_iff (n : Node) : isThenCall source n = true ↔ CallsThen source n := by
  rw [isThenCall, CallsThen, Bool.and_eq_true, beq_iff_eq]
  cases n.field? "function" with
  | none => simp
  | some callee =>
    cases hp : callee.field? "property" with
    | none => simp [hp]
    | some property => simp [hp]

theorem nearestFunction?_isAsync_iff (path : List Node) :
    ((nearestFunction? path).map isAsync).getD false = true ↔ InAsyncFunction path := by
  rw [nearestFunction?, ← List.getLast?_filter, InAsyncFunction]
  cases (path.filter (functionKinds.contains ·.kind)).getLast? with
  | none => simp
  | some function => simp [isAsync]

theorem visitCall_eq (v : Visit) : visitCall c source v = promiseFindings c source v := by
  rw [visitCall, promiseFindings]
  refine if_congr ?_ rfl rfl
  rw [Bool.and_eq_true, Bool.and_eq_true, isThenCall_iff, nearestFunction?_isAsync_iff, and_assoc]
  simp

/-! ## Imports -/

/-- The imported names that are used nowhere, in the order of their first imports, each at the place of
its last import. -/
def unusedImportFindings (visits : List Visit) : List Diagnostic :=
  let imports := visits.flatMap (importsOf source)
  ((imports.map (·.1)).eraseDups.filter fun name =>
      name ∉ (usesOf valueNameKinds source visits).map (·.1)
        ∧ name ∉ (usesOf typeNameKinds source visits).map (·.1)).flatMap fun name =>
    (Scope.valuesOf name imports).getLast?.toList.map fun binding =>
      c.diagnostic .unusedImport ("Unused import: '" ++ name ++ "'") binding.start binding.stop

/-- The uses of names that no node declares and that are not known, by names in the order of their
first uses. -/
def missingImportFindings (visits : List Visit) : List Diagnostic :=
  let uses := usesOf valueNameKinds source visits
  ((uses.map (·.1)).eraseDups.filter fun name =>
      ¬DeclaredIn source visits name ∧ name ∉ knownGlobals ∧ name ∉ c.globals).flatMap fun name =>
    (Scope.valuesOf name uses).map fun offset =>
      c.diagnostic .missingImport ("Missing import for '" ++ name ++ "'") offset
        (offset + nameWidth name)

theorem used_scopeAfter (visits : List Visit) :
    (scopeAfter source visits).used
      = ((usesOf valueNameKinds source visits).map (·.1)).eraseDups := by
  rw [Scope.used, references_scopeAfter]
  refine Scope.map_fst_tableOf (fun offsets hne => ?_) _
  rw [Scope.offsetsOf, if_neg (by simpa using hne)]
  rfl

theorem unusedImports_eq (visits : List Visit) :
    unusedImports c (scopeAfter source visits) = unusedImportFindings c source visits := by
  have htest (name : String) :
      (!(scopeAfter source visits).used.contains name
          && !(scopeAfter source visits).typeReferences.contains name)
        = decide (name ∉ (usesOf valueNameKinds source visits).map (·.1)
            ∧ name ∉ (usesOf typeNameKinds source visits).map (·.1)) := by
    rw [Bool.eq_iff_iff, Bool.and_eq_true, Bool.not_eq_true', Bool.not_eq_true',
      ← Bool.not_eq_true, ← Bool.not_eq_true, List.contains_iff_mem, List.contains_iff_mem,
      used_scopeAfter, List.mem_eraseDups, mem_typeReferences_scopeAfter, decide_eq_true_iff]
  unfold unusedImports
  rw [imports_scopeAfter, List.map_eq_flatMap]
  simp only [htest]
  rw [Scope.flatMap_filter_tableOf _ _ fun name => decide (name ∉ _ ∧ name ∉ _)]
  simp only [unusedImportFindings, List.map_eq_flatMap]

theorem missingImports_eq (visits : List Visit) :
    missingImports c (scopeAfter source visits) = missingImportFindings c source visits := by
  have htest (name : String) :
      (!isDefined c (scopeAfter source visits) name)
        = decide (¬DeclaredIn source visits name ∧ name ∉ knownGlobals ∧ name ∉ c.globals) := by
    rw [Bool.eq_iff_iff, Bool.not_eq_true', ← Bool.not_eq_true, isDefined, isDeclared_scopeAfter,
      Bool.or_eq_true, Bool.or_eq_true, List.contains_iff_mem, List.contains_iff_mem,
      decide_eq_true_iff, decide_eq_true_iff, not_or, not_or, and_assoc]
  unfold missingImports
  rw [references_scopeAfter]
  simp only [htest]
  rw [Scope.flatMap_filter_tableOf _ _ fun name =>
    decide (¬DeclaredIn source visits name ∧ name ∉ _ ∧ name ∉ _)]
  simp only [Scope.flatMap_offsetsOf, missingImportFindings]

/-! ## Codes of findings -/

/-- The kinds of nodes that a rule reports. -/
def Rule.reportedKinds : Rule → List String
  | .unusedImport => ["import_statement"]
  | .missingImport => ["identifier", "shorthand_property_identifier"]
  | .nullAccess => ["member_expression"]
  | .missingAwait => ["call_expression"]

theorem Rule.eq_of_code_eq {r r' : Rule} (h : r.code = r'.code) : r = r' := by
  have hrule := congrArg Rule.ofCode? h
  rw [Rule.ofCode?_code, Rule.ofCode?_code] at hrule
  exact Option.some.inj hrule

theorem kind_of_memberRead? {n : Node} {read : Node × Node} (h : memberRead? n = some read) :
    n.kind = "member_expression" := by
  rw [memberRead?] at h
  split at h
  · assumption
  · cases h

/-- **What a rule finds at a node** has the span of the node, which is of a kind that the rule reports. -/
theorem eq_diagnostic_of_mem_visit {r : Rule} {s : Scope} {v : Visit} {d : Diagnostic}
    (h : d ∈ r.visit c source s v) :
    v.node.kind ∈ r.reportedKinds ∧
      ∃ message, d = c.diagnostic r message v.node.start v.node.stop := by
  cases r with
  | unusedImport | missingImport => cases h
  | nullAccess =>
    change d ∈ visitMember c source s v.node at h
    rw [visitMember] at h
    split at h
    · cases h
    · next hread =>
      dsimp only at h
      split at h
      · cases h
      · rw [kind_of_memberRead? hread]
        exact ⟨List.mem_singleton_self _, _, List.mem_singleton.mp h⟩
  | missingAwait =>
    change d ∈ visitCall c source v at h
    rw [visitCall_eq, promiseFindings] at h
    split at h
    · next hcall =>
      rw [hcall.1.1]
      exact ⟨List.mem_singleton_self _, _, List.mem_singleton.mp h⟩
    · cases h

/-- What a rule finds at a node carries its code. -/
theorem ruleId_of_mem_visit {r : Rule} {s : Scope} {v : Visit} {d : Diagnostic}
    (h : d ∈ r.visit c source s v) : d.ruleId = r.code := by
  obtain ⟨-, message, rfl⟩ := eq_diagnostic_of_mem_visit c source h
  rfl

/-- What a rule finds in the finished scope carries its code. -/
theorem ruleId_of_mem_finish {r : Rule} {s : Scope} {d : Diagnostic} (h : d ∈ r.finish c s) :
    d.ruleId = r.code := by
  cases r with
  | unusedImport =>
    obtain ⟨item, -, rfl⟩ := List.mem_map.mp h
    rfl
  | missingImport =>
    obtain ⟨item, -, h⟩ := List.mem_flatMap.mp h
    obtain ⟨offset, -, rfl⟩ := List.mem_map.mp h
    rfl
  | nullAccess | missingAwait => cases h

theorem mem_enabledRules {c : RuleConfig} {r : Rule} :
    r ∈ c.enabledRules ↔ c.enables r = true := by
  rw [RuleConfig.enabledRules, List.mem_filter]
  exact and_iff_right r.mem_all

/-- A rule that is asked at most once gives its findings once. -/
theorem flatMap_ite_eq {rules : List Rule} (h : rules.Nodup) (r : Rule) (found : List Diagnostic) :
    (rules.flatMap fun r' => if r' = r then found else []) = if r ∈ rules then found else [] := by
  induction rules with
  | nil => rfl
  | cons r' rules ih =>
    rw [List.nodup_cons] at h
    rw [List.flatMap_cons, ih h.2]
    by_cases hr : r' = r
    · subst hr
      rw [if_pos rfl, if_neg h.1, if_pos List.mem_cons_self, List.append_nil]
    · rw [if_neg hr, List.nil_append]
      exact if_congr (List.mem_cons.trans (or_iff_right fun e => hr e.symm)).symm rfl rfl

/-- Of what the rules that run find, a rule has found what carries its code. -/
theorem filter_flatMap_enabledRules {found : Rule → List Diagnostic}
    (h : ∀ r, ∀ d ∈ found r, d.ruleId = r.code) (r : Rule) :
    (c.enabledRules.flatMap found).filter (·.ruleId = r.code)
      = if c.enables r then found r else [] := by
  have hone (r' : Rule) : (found r').filter (·.ruleId = r.code) = if r' = r then found r else [] := by
    by_cases hr : r' = r
    · rw [if_pos hr, hr]
      exact List.filter_eq_self.mpr fun d hd => decide_eq_true (h r d hd)
    · rw [if_neg hr]
      refine List.filter_eq_nil_iff.mpr fun d hd hcode => hr (Rule.eq_of_code_eq ?_)
      exact (h r' d hd).symm.trans (of_decide_eq_true hcode)
  have hnodup : c.enabledRules.Nodup :=
    List.Nodup.sublist List.filter_sublist (by decide : Rule.all.Nodup)
  rw [List.filter_flatMap, List.flatMap_congr fun r' _ => hone r', flatMap_ite_eq hnodup]
  exact if_congr mem_enabledRules rfl rfl

/-- **The findings with the code of a rule are those of the rule,** if it runs. -/
theorem filter_code_analyzeTree (r : Rule) (root : Node) :
    (analyzeTree c source root).filter (·.ruleId = r.code)
      = if c.enables r then
          ((fronted [] (preorder [] root)).flatMap fun item =>
            r.visit c source (scopeAfter source (item.1 ++ [item.2])) item.2)
          ++ r.finish c (scopeOf source root)
        else [] := by
  have hvisit (item : List Visit × Visit) :
      (c.enabledRules.flatMap fun r' =>
          r'.visit c source (scopeAfter source (item.1 ++ [item.2])) item.2).filter
            (·.ruleId = r.code)
        = if c.enables r then r.visit c source (scopeAfter source (item.1 ++ [item.2])) item.2
          else [] :=
    filter_flatMap_enabledRules c (fun _ _ hd => ruleId_of_mem_visit c source hd) r
  rw [analyzeTree_eq, List.filter_append, List.filter_flatMap,
    List.flatMap_congr fun item _ => hvisit item,
    filter_flatMap_enabledRules c (fun _ _ hd => ruleId_of_mem_finish c hd) r,
    ← scopeOf_eq_scopeAfter]
  split
  · rfl
  · exact (List.append_nil _).trans (List.flatMap_eq_nil_iff.mpr fun _ _ => rfl)

/-- Every finding comes from the rule whose code it carries, at a node or in the finished scope. -/
theorem exists_rule_of_mem_analyzeTree {root : Node} {d : Diagnostic}
    (h : d ∈ analyzeTree c source root) :
    ∃ r : Rule, d.ruleId = r.code ∧
      ((∃ item ∈ fronted [] (preorder [] root),
          d ∈ r.visit c source (scopeAfter source (item.1 ++ [item.2])) item.2) ∨
        d ∈ r.finish c (scopeAfter source (preorder [] root))) := by
  rw [analyzeTree_eq, List.mem_append] at h
  rcases h with h | h
  · obtain ⟨item, hitem, h⟩ := List.mem_flatMap.mp h
    obtain ⟨r, -, h⟩ := List.mem_flatMap.mp h
    exact ⟨r, ruleId_of_mem_visit c source h, Or.inl ⟨item, hitem, h⟩⟩
  · obtain ⟨r, -, h⟩ := List.mem_flatMap.mp h
    exact ⟨r, ruleId_of_mem_finish c h, Or.inr h⟩

/-- A finding with the code of a rule comes from this rule. -/
theorem mem_analyzeTree_of_code {r : Rule} {root : Node} {d : Diagnostic}
    (h : d ∈ analyzeTree c source root) (hcode : d.ruleId = r.code) :
    (∃ item ∈ fronted [] (preorder [] root),
        d ∈ r.visit c source (scopeAfter source (item.1 ++ [item.2])) item.2) ∨
      d ∈ r.finish c (scopeAfter source (preorder [] root)) := by
  obtain ⟨r', hcode', h⟩ := exists_rule_of_mem_analyzeTree c source h
  obtain rfl := Rule.eq_of_code_eq (hcode'.symm.trans hcode)
  exact h

theorem mem_unusedImports_of_code {root : Node} {d : Diagnostic} (h : d ∈ analyzeTree c source root)
    (hcode : d.ruleId = Rule.unusedImport.code) : d ∈ unusedImports c (scopeOf source root) := by
  rw [scopeOf_eq_scopeAfter]
  rcases mem_analyzeTree_of_code c source h hcode with ⟨item, -, h⟩ | h
  · cases h
  · exact h

theorem mem_missingImports_of_code {root : Node} {d : Diagnostic} (h : d ∈ analyzeTree c source root)
    (hcode : d.ruleId = Rule.missingImport.code) : d ∈ missingImports c (scopeOf source root) := by
  rw [scopeOf_eq_scopeAfter]
  rcases mem_analyzeTree_of_code c source h hcode with ⟨item, -, h⟩ | h
  · cases h
  · exact h

/-- **A finding about an unused import is about an imported name without a use.** -/
theorem exists_import_of_mem_analyzeTree {root : Node} {d : Diagnostic}
    (h : d ∈ analyzeTree c source root) (hcode : d.ruleId = Rule.unusedImport.code) :
    ∃ name binding, (name, binding) ∈ (scopeOf source root).imports ∧
      name ∉ (scopeOf source root).used ∧ name ∉ (scopeOf source root).typeReferences ∧
      d.start = binding.start := by
  obtain ⟨⟨name, binding⟩, hitem, rfl⟩ := List.mem_map.mp (mem_unusedImports_of_code c source h hcode)
  obtain ⟨himport, hunused⟩ := List.mem_filter.mp hitem
  have hunused : name ∉ (scopeOf source root).used
      ∧ name ∉ (scopeOf source root).typeReferences := by simpa using hunused
  exact ⟨name, binding, himport, hunused.1, hunused.2, rfl⟩

/-! ## All rules -/

/-- **The findings of all rules.** At each node in pre-order come the findings about a read of a member
and about a promise, and after the last node those about unused and missing imports. -/
theorem analyzeTree_eq_findings (root : Node) (h : ∀ r, c.enables r = true) :
    analyzeTree c source root
      = ((fronted [] (preorder [] root)).flatMap fun item =>
          memberFindings c source item.1 item.2 ++ promiseFindings c source item.2)
        ++ unusedImportFindings c source (preorder [] root)
        ++ missingImportFindings c source (preorder [] root) := by
  rw [analyzeTree_eq, enabledRules_eq_all h]
  simp only [Rule.all, List.flatMap_cons, List.flatMap_nil, Rule.visit, Rule.finish, List.nil_append,
    List.append_nil, visitMember_eq, visitCall_eq, unusedImports_eq, missingImports_eq,
    List.append_assoc]

/-- A source in which every rule finds something. -/
def sampleSource : List UInt8 :=
  Utf8.encode "import u from 'm'; async () => x.then(g)".toList

/-- The tree of this source. -/
def sampleTree : Node :=
  let token (kind : String) (start stop : Nat) : Node :=
    .mk ⟨kind, start, stop, false, false, false, []⟩ []
  let node (kind : String) (start stop : Nat) (fields : List String) (children : List Node) : Node :=
    .mk ⟨kind, start, stop, true, false, false, fields⟩ children
  node "program" 0 40 []
    [node "import_statement" 0 18 []
      [token "import" 0 6,
       node "import_clause" 7 8 [] [node "identifier" 7 8 [] []],
       token "from" 9 13,
       node "string" 14 17 ["source"] []],
     node "expression_statement" 19 40 []
      [node "arrow_function" 19 40 []
        [token "async" 19 24,
         node "formal_parameters" 25 27 ["parameters"] [],
         node "call_expression" 31 40 ["body"]
          [node "member_expression" 31 37 ["function"]
            [node "identifier" 31 32 ["object"] [], token "." 32 33,
             node "property_identifier" 33 37 ["property"] []],
           node "arguments" 37 40 ["arguments"] [node "identifier" 38 39 [] []]]]]]

/-- Every rule finds something in the sample, in the order of the nodes and then of the rules. -/
theorem analyzeTree_eq_findings_sample :
    (∀ r, ({} : RuleConfig).enables r = true)
      ∧ ((((fronted [] (preorder [] sampleTree)).flatMap fun item =>
            memberFindings {} sampleSource item.1 item.2 ++ promiseFindings {} sampleSource item.2)
          ++ unusedImportFindings {} sampleSource (preorder [] sampleTree)
          ++ missingImportFindings {} sampleSource (preorder [] sampleTree)).map
            fun d => (d.ruleId, d.start, d.stop))
        = [("R4", 31, 40), ("R3", 31, 37), ("R1", 0, 18), ("R2", 31, 32), ("R2", 38, 39)] := by
  have henabled : ∀ r, ({} : RuleConfig).enables r = true := fun r => by cases r <;> decide
  refine ⟨henabled, ?_⟩
  rw [← analyzeTree_eq_findings {} sampleSource sampleTree henabled]
  decide +kernel

end PatchLint
