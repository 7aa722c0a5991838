import PatchLint.Proofs.Scope.Steps
import PatchLint.Scope.Observe

/-!
# What the nodes of a tree contribute

A node contributes to the scope by itself: it marks some nodes as no references, it imports some names
and it binds some names (`contribution`), whatever has been recorded before. Only whether a name is a
use depends on what came before it (`useOf?`): a name is a use unless its span has been marked.

* `bindAll_eq` — binding patterns with a stack binds their names from left to right
* `observe_eq` — observing a node makes the steps of its contribution, and then those of its use
* `excluded?_steps`, `declared?_steps`, `imported?_steps` — what these steps hold
-/

namespace PatchLint

open Node

/-! ## Names in patterns -/

theorem count_lt_of_mem_patternParts {n m : Node} (h : m ∈ patternParts n) : m.count < n.count :=
  Nat.lt_of_le_of_lt (count_le_countAll h) (countAll_patternParts_lt n)

/-- The names that a pattern binds, from left to right. -/
def patternNames (n : Node) : List Node :=
  if isBoundName n then [n]
  else (patternParts n).attach.flatMap fun ⟨m, _⟩ => patternNames m
termination_by n.count
decreasing_by exact count_lt_of_mem_patternParts ‹_›

theorem patternNames_of_isBoundName {n : Node} (h : isBoundName n = true) :
    patternNames n = [n] := by
  rw [patternNames, if_pos h]

theorem patternNames_of_not_isBoundName {n : Node} (h : ¬isBoundName n = true) :
    patternNames n = (patternParts n).flatMap patternNames := by
  rw [patternNames, if_neg h]
  simp only [List.flatMap_subtype, List.unattach_attach]

/-- The steps that bind names at an offset. -/
def bindSteps (source : List UInt8) (offset : Nat) (names : List Node) : List ScopeStep :=
  names.flatMap fun n => [.exclude n.span, .declare (n.text source) offset]

theorem bindSteps_append (source : List UInt8) (offset : Nat) (names more : List Node) :
    bindSteps source offset (names ++ more)
      = bindSteps source offset names ++ bindSteps source offset more := List.flatMap_append

/-- **Binding patterns binds their names from left to right.** -/
theorem bindAll_eq (source : List UInt8) (offset : Nat) (s : Scope) (stack : List Node) :
    bindAll source offset s stack
      = s.performAll (bindSteps source offset (stack.flatMap patternNames)) := by
  fun_induction bindAll source offset s stack with
  | case1 s => rfl
  | case2 s n stack hn ih =>
    rw [ih, List.flatMap_cons, patternNames_of_isBoundName hn]
    rfl
  | case3 s n stack hn ih =>
    rw [ih, List.flatMap_append, List.flatMap_cons, patternNames_of_not_isBoundName hn]

/-- The names in the pattern under a field. -/
def fieldPatternNames (n : Node) (name : String) : List Node :=
  (n.field? name).toList.flatMap patternNames

theorem bindPattern_field (source : List UInt8) (offset : Nat) (n : Node) (name : String)
    (s : Scope) :
    bindPattern source offset (n.field? name) s
      = s.performAll (bindSteps source offset (fieldPatternNames n name)) :=
  bindAll_eq source offset s (n.field? name).toList

/-! ## Contributions -/

/-- What a node contributes by itself: nodes that are no references, names that it imports and names
that it binds otherwise. -/
structure Contribution where
  passive : List Node := []
  imported : List Node := []
  bound : List Node := []

/-- The names that a function binds: its own, and those of its parameters. -/
def functionNames (n : Node) : List Node :=
  (n.field? "name").toList.filter (·.kind = "identifier") ++ fieldPatternNames n "parameter"
    ++ (n.field? "parameters").toList.flatMap fun params => params.namedChildren.flatMap patternNames

/-- The name that a class or a type binds. -/
def declarationName (n : Node) : List Node :=
  ((n.field? "name").bind boundHead?).toList.filter
    (["identifier", "type_identifier"].contains ·.kind)

/-- Whether a node stands in an export that passes names on from another module. -/
def isPassedOn (path : List Node) : Bool :=
  match path.reverse.find? (·.kind == "export_statement") with
  | none => false
  | some statement => (statement.field? "source").isSome

/-- Whether a name of a markup element stands for itself and not for a component. -/
def isPlainTag (source : List UInt8) (name : Node) : Bool :=
  name.kind = "identifier" && !((name.text source).toList.head?.map Text.isCapital).getD false

/-- What a node contributes. -/
def contribution (source : List UInt8) (v : Visit) : Contribution :=
  let n := v.node
  let kind := n.kind
  if kind = "import_statement" then { passive := importedNames n, imported := importLocals n }
  else if kind = "variable_declarator" then { bound := fieldPatternNames n "name" }
  else if functionKinds.contains kind || signatureKinds.contains kind then
    { bound := functionNames n }
  else if classKinds.contains kind || namedDeclarationKinds.contains kind then
    { bound := declarationName n }
  else if kind = "catch_clause" then { bound := fieldPatternNames n "parameter" }
  else if kind = "for_in_statement" then
    if (n.field? "kind").isSome then { bound := fieldPatternNames n "left" } else {}
  else if kind = "index_signature" then { passive := (n.field? "name").toList }
  else if kind = "export_specifier" then
    { passive := (n.field? "alias").toList
        ++ if isPassedOn v.ancestors then (n.field? "name").toList else [] }
  else if kind = "namespace_export" then { passive := n.namedChildren }
  else if markupKinds.contains kind then
    { passive := (n.field? "name").toList.filter (isPlainTag source) }
  else if kind = "jsx_closing_element" then { passive := (n.field? "name").toList }
  else {}

/-- The binding of the names that a node imports. -/
def importBinding (source : List UInt8) (n : Node) : ImportBinding :=
  ⟨n.start, n.stop, stringValue source (importSource? n)⟩

/-- The names that a node declares. -/
def declaredNames (source : List UInt8) (v : Visit) : List String :=
  let c := contribution source v
  (c.imported ++ c.bound).map (·.text source)

/-- The names that a node imports, with their bindings. -/
def importsOf (source : List UInt8) (v : Visit) : List (String × ImportBinding) :=
  (contribution source v).imported.map fun l => (l.text source, importBinding source v.node)

/-- The spans that a node marks as no references. -/
def markedSpans (source : List UInt8) (v : Visit) : List (Nat × Nat) :=
  let c := contribution source v
  (c.passive ++ c.imported ++ c.bound).map (·.span)

/-! ## Uses -/

/-- Nodes that are names of values. -/
def valueNameKinds : List String := ["identifier", "shorthand_property_identifier"]

/-- Nodes that are names of types. -/
def typeNameKinds : List String := ["type_identifier"]

/-- The use that a name of one of these kinds is, with its offset: it is one unless its span is marked
in front of it. -/
def useOf? (kinds : List String) (source : List UInt8) (marked : List (Nat × Nat)) (n : Node) :
    Option (String × Nat) :=
  if n.kind ∈ kinds ∧ n.span ∉ marked then some (n.text source, n.start) else none

/-! ## Observing a node -/

/-- The steps that mark nodes as no references. -/
def excludeSteps (ns : List Node) : List ScopeStep := ns.map (.exclude ·.span)

/-- The steps that import names. -/
def importSteps (source : List UInt8) (binding : ImportBinding) (locals : List Node) :
    List ScopeStep :=
  locals.flatMap fun l => [.exclude l.span, .declareImport (l.text source) binding]

/-- The steps of a contribution of a node. -/
def Contribution.steps (source : List UInt8) (n : Node) (c : Contribution) : List ScopeStep :=
  excludeSteps c.passive ++ importSteps source (importBinding source n) c.imported
    ++ bindSteps source n.start c.bound

/-- The steps of a node that is a use. -/
def useSteps (source : List UInt8) (marked : List (Nat × Nat)) (n : Node) : List ScopeStep :=
  (useOf? valueNameKinds source marked n).toList.map (fun use => .reference use.1 use.2)
    ++ (useOf? typeNameKinds source marked n).toList.map (fun use => .referenceType use.1)

theorem excludeAll_eq (ns : List Node) (s : Scope) :
    excludeAll ns s = s.performAll (excludeSteps ns) := by
  rw [excludeAll, Scope.performAll, excludeSteps, List.foldl_map]
  rfl

theorem excludeField_eq (n : Node) (name : String) (s : Scope) :
    excludeField n name s = s.performAll (excludeSteps (n.field? name).toList) := by
  unfold excludeField
  cases n.field? name with
  | none => rfl
  | some child => rfl

theorem observeImport_eq (source : List UInt8) (n : Node) (s : Scope) :
    observeImport source n s
      = s.performAll (excludeSteps (importedNames n)
          ++ importSteps source (importBinding source n) (importLocals n)) := by
  rw [observeImport, excludeAll_eq, Scope.performAll_append]
  generalize s.performAll (excludeSteps (importedNames n)) = s
  rw [importSteps, Scope.performAll, List.foldl_flatMap]
  rfl

theorem observeNamed_eq (source : List UInt8) (n : Node) (s : Scope) :
    observeNamed source n s = s.performAll (bindSteps source n.start (declarationName n)) := by
  unfold observeNamed declarationName
  cases (n.field? "name").bind boundHead? with
  | none => rfl
  | some name =>
    dsimp only [Option.toList_some]
    split
    · next h =>
      simp only [List.filter_cons, List.filter_nil, h, if_true]
      rfl
    · next h =>
      simp only [List.filter_cons, List.filter_nil, h]
      rfl

theorem bindParameters_eq (source : List UInt8) (n : Node) (s : Scope) :
    bindParameters source n s
      = s.performAll (bindSteps source n.start (fieldPatternNames n "parameter"
          ++ (n.field? "parameters").toList.flatMap fun params =>
            params.namedChildren.flatMap patternNames)) := by
  rw [bindParameters, bindPattern_field, bindSteps_append, Scope.performAll_append]
  generalize s.performAll (bindSteps source n.start (fieldPatternNames n "parameter")) = s
  cases n.field? "parameters" with
  | none => rfl
  | some params =>
    show params.namedChildren.foldl _ s = _
    rw [Option.toList_some, List.flatMap_singleton, ← bindAll_eq]
    induction params.namedChildren generalizing s with
    | nil => rw [bindAll]; rfl
    | cons p ps ih =>
      rw [List.foldl_cons, ih, bindAll_eq, bindPattern, bindAll_eq, bindAll_eq, ← Scope.performAll_append,
        ← bindSteps_append, ← List.flatMap_append]
      rfl

theorem observeFunction_eq (source : List UInt8) (n : Node) (s : Scope) :
    observeFunction source n s = s.performAll (bindSteps source n.start (functionNames n)) := by
  rw [observeFunction, bindParameters_eq, functionNames, List.append_assoc,
    bindSteps_append source n.start (List.filter _ _), Scope.performAll_append]
  cases n.field? "name" with
  | none => rfl
  | some name =>
    dsimp only [Option.toList_some]
    split
    · next h =>
      simp only [List.filter_cons, List.filter_nil, h, decide_true, if_true]
      rfl
    · next h =>
      simp only [List.filter_cons, List.filter_nil, h, decide_false]
      rfl

theorem observeExport_eq (n : Node) (path : List Node) (s : Scope) :
    observeExport n path s
      = s.performAll (excludeSteps ((n.field? "alias").toList
          ++ if isPassedOn path then (n.field? "name").toList else [])) := by
  rw [observeExport, isPassedOn, excludeSteps, List.map_append, Scope.performAll_append,
    excludeField_eq]
  cases path.reverse.find? (·.kind == "export_statement") with
  | none => rfl
  | some statement =>
    dsimp only
    split
    · rw [excludeField_eq]
      rfl
    · rfl

theorem observeMarkup_eq (source : List UInt8) (n : Node) (s : Scope) :
    observeMarkup source n s
      = s.performAll (excludeSteps ((n.field? "name").toList.filter (isPlainTag source))) := by
  unfold observeMarkup
  cases n.field? "name" with
  | none => rfl
  | some name =>
    dsimp only [Option.toList_some]
    rw [← isPlainTag]
    split
    · next h => rw [List.filter_cons_of_pos h]; rfl
    · next h => rw [List.filter_cons_of_neg h]; rfl

theorem useOf?_eq_none {kinds : List String} {source : List UInt8} {marked : List (Nat × Nat)}
    {n : Node} (h : n.kind ∉ kinds) : useOf? kinds source marked n = none :=
  if_neg fun hn => h hn.1

theorem useSteps_eq_nil {source : List UInt8} {marked : List (Nat × Nat)} {n : Node}
    (h : n.kind ∉ valueNameKinds ++ typeNameKinds) : useSteps source marked n = [] := by
  rw [List.mem_append, not_or] at h
  rw [useSteps, useOf?_eq_none h.1, useOf?_eq_none h.2]
  rfl

theorem steps_bound (source : List UInt8) (n : Node) (names : List Node) :
    ({ bound := names } : Contribution).steps source n = bindSteps source n.start names := rfl

theorem steps_import (source : List UInt8) (n : Node) (ns locals : List Node) :
    ({ passive := ns, imported := locals } : Contribution).steps source n
      = excludeSteps ns ++ importSteps source (importBinding source n) locals :=
  List.append_nil _

theorem steps_passive (source : List UInt8) (n : Node) (ns : List Node) :
    excludeSteps ns ++ importSteps source (importBinding source n) [] = excludeSteps ns :=
  List.append_nil _

/-- A name contributes nothing by itself, and it is a use unless it is marked. -/
theorem observe_name (source : List UInt8) (s : Scope) {v : Visit}
    (h : v.node.kind ∈ valueNameKinds ++ typeNameKinds) :
    contribution source v = {}
      ∧ observe source s v = s.performAll (useSteps source s.excluded v.node) := by
  have h : v.node.kind = "identifier" ∨ v.node.kind = "shorthand_property_identifier"
      ∨ v.node.kind = "type_identifier" := by simpa [valueNameKinds, typeNameKinds] using h
  constructor
  · rcases h with h | h | h <;>
      simp [contribution, h, functionKinds, signatureKinds, classKinds, namedDeclarationKinds,
        markupKinds]
  · by_cases hm : v.node.span ∈ s.excluded
    · rcases h with h | h | h <;>
        simp [observe, h, functionKinds, signatureKinds, classKinds, namedDeclarationKinds,
          markupKinds, Scope.isExcluded, hm, useSteps, useOf?]
    · rcases h with h | h | h <;>
        simp [observe, h, functionKinds, signatureKinds, classKinds, namedDeclarationKinds,
          markupKinds, Scope.isExcluded, hm, useSteps, useOf?, valueNameKinds, typeNameKinds,
          Scope.perform]

/-- **Observing a node makes the steps of its contribution, and then those of its use.** -/
theorem observe_eq (source : List UInt8) (s : Scope) (v : Visit) :
    observe source s v
      = s.performAll ((contribution source v).steps source v.node
          ++ useSteps source s.excluded v.node) := by
  by_cases h : v.node.kind ∈ valueNameKinds ++ typeNameKinds
  · -- a name contributes nothing, and any other node is no use
    obtain ⟨hc, ho⟩ := observe_name source s h
    rw [hc, ho]
    rfl
  · rw [useSteps_eq_nil h, List.append_nil]
    have hvalue : ¬(v.node.kind = "identifier" || v.node.kind = "shorthand_property_identifier") := by
      intro hk
      refine h ?_
      simpa [valueNameKinds, typeNameKinds, or_assoc] using Or.inl (Bool.or_eq_true_iff.mp hk)
    have htype : v.node.kind ≠ "type_identifier" := by
      intro hk
      rw [hk] at h
      exact h (by decide)
    -- both sides ask for the same kinds in the same order
    simp only [observe, contribution, if_neg hvalue, if_neg htype, observeImport_eq,
      bindPattern_field, observeFunction_eq, observeNamed_eq, excludeField_eq, observeExport_eq,
      excludeAll_eq, observeMarkup_eq, apply_ite (Contribution.steps source v.node),
      apply_ite s.performAll, steps_bound, steps_import, steps_passive]
    rfl

/-! ## What the steps of a node hold -/

section Items

variable (source : List UInt8) (v : Visit) (marked : List (Nat × Nat)) (n : Node)

theorem filterMap_steps {β : Type} (item? : ScopeStep → Option β) (c : Contribution) :
    (c.steps source n).filterMap item?
      = c.passive.filterMap (fun m => item? (.exclude m.span))
        ++ c.imported.flatMap (fun m =>
          [.exclude m.span, .declareImport (m.text source) (importBinding source n)].filterMap item?)
        ++ c.bound.flatMap (fun m =>
          [.exclude m.span, .declare (m.text source) n.start].filterMap item?) := by
  simp only [Contribution.steps, excludeSteps, importSteps, bindSteps, List.filterMap_append,
    List.filterMap_map, List.filterMap_flatMap, Function.comp_def]

theorem excluded?_steps :
    ((contribution source v).steps source v.node).filterMap ScopeStep.excluded?
      = markedSpans source v := by
  rw [filterMap_steps, markedSpans, List.map_append, List.map_append, List.map_eq_flatMap,
    List.map_eq_flatMap, List.map_eq_flatMap, List.filterMap_eq_flatMap_toList]
  rfl

theorem declared?_steps :
    ((contribution source v).steps source v.node).filterMap ScopeStep.declared?
      = declaredNames source v := by
  have hpassive : (contribution source v).passive.filterMap
      (fun m => ScopeStep.declared? (.exclude m.span)) = [] :=
    List.filterMap_eq_nil_iff.mpr fun _ _ => rfl
  rw [filterMap_steps, hpassive, declaredNames, List.map_append, List.map_eq_flatMap,
    List.map_eq_flatMap]
  rfl

theorem imported?_steps :
    ((contribution source v).steps source v.node).filterMap ScopeStep.imported?
      = importsOf source v := by
  have hpassive : (contribution source v).passive.filterMap
      (fun m => ScopeStep.imported? (.exclude m.span)) = [] :=
    List.filterMap_eq_nil_iff.mpr fun _ _ => rfl
  have hbound : (contribution source v).bound.flatMap (fun m =>
      [.exclude m.span, .declare (m.text source) v.node.start].filterMap ScopeStep.imported?) = [] :=
    List.flatMap_eq_nil_iff.mpr fun _ _ => rfl
  rw [filterMap_steps, hpassive, hbound, List.append_nil, importsOf, List.map_eq_flatMap]
  rfl

/-- A contribution is no use. -/
theorem filterMap_steps_eq_nil {β : Type} {item? : ScopeStep → Option β} {c : Contribution}
    (hexclude : ∀ span, item? (.exclude span) = none)
    (himport : ∀ name binding, item? (.declareImport name binding) = none)
    (hdeclare : ∀ name offset, item? (.declare name offset) = none) :
    (c.steps source n).filterMap item? = [] := by
  simp [filterMap_steps, hexclude, himport, hdeclare]

/-- A use contributes nothing else. -/
theorem filterMap_useSteps_eq_nil {β : Type} {item? : ScopeStep → Option β}
    (hvalue : ∀ name offset, item? (.reference name offset) = none)
    (htype : ∀ name, item? (.referenceType name) = none) :
    (useSteps source marked n).filterMap item? = [] := by
  simp [useSteps, hvalue, htype]

theorem referenced?_useSteps :
    (useSteps source marked n).filterMap ScopeStep.referenced?
      = (useOf? valueNameKinds source marked n).toList := by
  simp [useSteps, ScopeStep.referenced?, List.filterMap_map, Function.comp_def]

theorem typeReferenced?_useSteps :
    (useSteps source marked n).filterMap ScopeStep.typeReferenced?
      = (useOf? typeNameKinds source marked n).toList.map (·.1) := by
  simp [useSteps, ScopeStep.typeReferenced?, List.filterMap_map, Function.comp_def]

end Items

end PatchLint
