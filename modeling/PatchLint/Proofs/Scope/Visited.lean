import PatchLint.Proofs.Scope.Contribution
import PatchLint.Proofs.Tree.Preorder

/-!
# The scope after some visits

What a scope holds after some nodes have been observed one after another can be told without going
through them again. Each node counts with what stands in front of it (`fronted`): its contribution is
its own, and its use depends on the spans that are marked in front of it.

* `mem_declared_scopeAfter` — a name is declared if one of the nodes binds or imports it
* `mem_excluded_scopeAfter` — a span is excluded if one of the nodes marks it
* `imports_scopeAfter` — the imports are those of all nodes, in their order
* `references_scopeAfter`, `mem_typeReferences_scopeAfter` — the uses are the names that no node in
  front has marked, in their order
-/

namespace PatchLint

open Node

/-! ## Elements with their fronts -/

/-- The elements of a list, each with those in front of it. -/
def fronted {α : Type} (front : List α) : List α → List (List α × α)
  | [] => []
  | a :: as => (front, a) :: fronted (front ++ [a]) as

theorem map_snd_fronted {α : Type} (front as : List α) : (fronted front as).map (·.2) = as := by
  induction as generalizing front with
  | nil => rfl
  | cons a as ih => rw [fronted, List.map_cons, ih]

theorem flatMap_snd_fronted {α β : Type} (f : α → List β) (front as : List α) :
    (fronted front as).flatMap (fun item => f item.2) = as.flatMap f := by
  rw [← List.flatMap_map, map_snd_fronted]

/-! ## Steps of visits -/

variable {source : List UInt8}

/-- The scope after some visits. -/
def scopeAfter (source : List UInt8) (visits : List Visit) : Scope :=
  visits.foldl (observe source) {}

/-- The scope of a tree is that after its nodes in pre-order. -/
theorem scopeOf_eq_scopeAfter (source : List UInt8) (root : Node) :
    scopeOf source root = scopeAfter source (preorder [] root) := by
  rw [scopeOf, walk_eq_preorder]
  rfl

theorem scopeAfter_concat (visits : List Visit) (v : Visit) :
    scopeAfter source (visits ++ [v]) = observe source (scopeAfter source visits) v := by
  rw [scopeAfter, List.foldl_concat]
  rfl

/-- The spans that are marked by some visits. -/
def markedBy (source : List UInt8) (visits : List Visit) : List (Nat × Nat) :=
  visits.flatMap (markedSpans source)

/-- The names of some kinds that are used in some visits, with their offsets. -/
def usesOf (kinds : List String) (source : List UInt8) (visits : List Visit) :
    List (String × Nat) :=
  (fronted [] visits).filterMap fun item =>
    useOf? kinds source (markedBy source item.1) item.2.node

/-- The steps of a node behind others. -/
def visitSteps (source : List UInt8) (item : List Visit × Visit) : List ScopeStep :=
  (contribution source item.2).steps source item.2.node
    ++ useSteps source (markedBy source item.1) item.2.node

/-- A use depends only on whether its own span is marked. -/
theorem useSteps_congr {marked marked' : List (Nat × Nat)} {n : Node}
    (h : n.span ∈ marked ↔ n.span ∈ marked') :
    useSteps source marked n = useSteps source marked' n := by
  simp only [useSteps, useOf?, h]

theorem excluded?_visitSteps (item : List Visit × Visit) :
    (visitSteps source item).filterMap ScopeStep.excluded? = markedSpans source item.2 := by
  rw [visitSteps, List.filterMap_append, excluded?_steps,
    filterMap_useSteps_eq_nil _ _ _ (fun _ _ => rfl) (fun _ => rfl), List.append_nil]

/-- **One visit behind others makes its steps,** if the scope has marked what the others mark. -/
theorem observe_eq_visitSteps {s : Scope} {front : List Visit} (v : Visit)
    (h : ∀ span, span ∈ s.excluded ↔ span ∈ markedBy source front) :
    observe source s v = s.performAll (visitSteps source (front, v)) := by
  rw [observe_eq, useSteps_congr (h v.node.span)]
  rfl

/-- **Visits make their steps one after another.** -/
theorem foldl_observe_eq (visits : List Visit) {s : Scope} {front : List Visit}
    (h : ∀ span, span ∈ s.excluded ↔ span ∈ markedBy source front) :
    visits.foldl (observe source) s
      = s.performAll ((fronted front visits).flatMap (visitSteps source)) := by
  induction visits generalizing s front with
  | nil => rfl
  | cons v visits ih =>
    rw [List.foldl_cons, fronted, List.flatMap_cons, Scope.performAll_append,
      observe_eq_visitSteps v h]
    -- what the node marks is now marked on both sides
    refine ih fun span => ?_
    rw [Scope.mem_excluded_performAll, excluded?_visitSteps, h, markedBy, markedBy,
      List.flatMap_append, List.flatMap_singleton, List.mem_append]

theorem scopeAfter_eq (visits : List Visit) :
    scopeAfter source visits
      = ({} : Scope).performAll ((fronted [] visits).flatMap (visitSteps source)) :=
  foldl_observe_eq visits fun _ => Iff.rfl

/-! ## The fields of the scope -/

theorem declared?_visitSteps (item : List Visit × Visit) :
    (visitSteps source item).filterMap ScopeStep.declared? = declaredNames source item.2 := by
  rw [visitSteps, List.filterMap_append, declared?_steps,
    filterMap_useSteps_eq_nil _ _ _ (fun _ _ => rfl) (fun _ => rfl), List.append_nil]

theorem imported?_visitSteps (item : List Visit × Visit) :
    (visitSteps source item).filterMap ScopeStep.imported? = importsOf source item.2 := by
  rw [visitSteps, List.filterMap_append, imported?_steps,
    filterMap_useSteps_eq_nil _ _ _ (fun _ _ => rfl) (fun _ => rfl), List.append_nil]

theorem referenced?_visitSteps (item : List Visit × Visit) :
    (visitSteps source item).filterMap ScopeStep.referenced?
      = (useOf? valueNameKinds source (markedBy source item.1) item.2.node).toList := by
  rw [visitSteps, List.filterMap_append, referenced?_useSteps,
    filterMap_steps_eq_nil _ _ (fun _ => rfl) (fun _ _ => rfl) (fun _ _ => rfl), List.nil_append]

theorem typeReferenced?_visitSteps (item : List Visit × Visit) :
    (visitSteps source item).filterMap ScopeStep.typeReferenced?
      = (useOf? typeNameKinds source (markedBy source item.1) item.2.node).toList.map (·.1) := by
  rw [visitSteps, List.filterMap_append, typeReferenced?_useSteps,
    filterMap_steps_eq_nil _ _ (fun _ => rfl) (fun _ _ => rfl) (fun _ _ => rfl), List.nil_append]

/-- **A name is declared if one of the nodes binds or imports it.** -/
theorem mem_declared_scopeAfter {visits : List Visit} {name : String} :
    name ∈ (scopeAfter source visits).declared ↔ ∃ v ∈ visits, name ∈ declaredNames source v := by
  rw [scopeAfter_eq, Scope.mem_declared_performAll, List.filterMap_flatMap]
  simp only [declared?_visitSteps]
  rw [flatMap_snd_fronted, List.mem_flatMap]
  exact or_iff_right List.not_mem_nil

/-- **A span is excluded if one of the nodes marks it.** -/
theorem mem_excluded_scopeAfter {visits : List Visit} {span : Nat × Nat} :
    span ∈ (scopeAfter source visits).excluded ↔ span ∈ markedBy source visits := by
  rw [scopeAfter_eq, Scope.mem_excluded_performAll, List.filterMap_flatMap]
  simp only [excluded?_visitSteps]
  rw [flatMap_snd_fronted, markedBy]
  exact or_iff_right List.not_mem_nil

/-- **The imports are those of all nodes.** -/
theorem imports_scopeAfter (visits : List Visit) :
    (scopeAfter source visits).imports
      = Scope.tableOf List.getLast? (visits.flatMap (importsOf source)) := by
  rw [scopeAfter_eq, Scope.imports_performAll, List.filterMap_flatMap]
  simp only [imported?_visitSteps]
  rw [flatMap_snd_fronted]

/-- **The references are the names of values that no node in front has marked.** -/
theorem references_scopeAfter (visits : List Visit) :
    (scopeAfter source visits).references
      = Scope.tableOf Scope.offsetsOf (usesOf valueNameKinds source visits) := by
  rw [scopeAfter_eq, Scope.references_performAll, List.filterMap_flatMap]
  simp only [referenced?_visitSteps]
  rw [usesOf, List.filterMap_eq_flatMap_toList]

/-- **The references to types are the names of types that no node in front has marked.** -/
theorem mem_typeReferences_scopeAfter {visits : List Visit} {name : String} :
    name ∈ (scopeAfter source visits).typeReferences
      ↔ name ∈ (usesOf typeNameKinds source visits).map (·.1) := by
  rw [scopeAfter_eq, Scope.mem_typeReferences_performAll, List.filterMap_flatMap]
  simp only [typeReferenced?_visitSteps]
  rw [usesOf, List.filterMap_eq_flatMap_toList, List.map_flatMap]
  exact or_iff_right List.not_mem_nil

end PatchLint
