import PatchLint.Proofs.Scope.Collections

/-!
# Runs of a scope

A scope is filled by steps: a name is declared, imported or referenced, or a span is marked. What a
scope holds after any run of steps is told field by field (`field_performAll`): each field takes in
the items that concern it, in their order, and the other steps leave it alone.

* `mem_declared_performAll`, `mem_excluded_performAll`, `mem_typeReferences_performAll` — the sets
  hold what has been put into them
* `declarations_performAll` — the declarations are in the order of their first appearance, each with its
  first offset
* `imports_performAll` — the imports are in the order of their first appearance, each with its last
  binding
* `references_performAll` — the references are in the order of their first appearance, each with all
  its offsets
-/

namespace PatchLint

/-- One thing that a scope is told. -/
inductive ScopeStep where
  | declare (name : String) (offset : Nat)
  | declareImport (name : String) (binding : ImportBinding)
  | reference (name : String) (offset : Nat)
  | referenceType (name : String)
  | exclude (span : Nat × Nat)
  deriving DecidableEq, Repr

namespace ScopeStep

/-- The name that a step binds. -/
def declared? : ScopeStep → Option String
  | .declare name _ | .declareImport name _ => some name
  | _ => none

/-- The name that a step binds, with its offset. An import stands at the start of its statement. -/
def declaredAt? : ScopeStep → Option (String × Nat)
  | .declare name offset => some (name, offset)
  | .declareImport name binding => some (name, binding.start)
  | _ => none

/-- The name that a step imports, with its binding. -/
def imported? : ScopeStep → Option (String × ImportBinding)
  | .declareImport name binding => some (name, binding)
  | _ => none

/-- The name that a step references, with its offset. -/
def referenced? : ScopeStep → Option (String × Nat)
  | .reference name offset => some (name, offset)
  | _ => none

/-- The name that a step references as a type. -/
def typeReferenced? : ScopeStep → Option String
  | .referenceType name => some name
  | _ => none

/-- The span that a step marks. -/
def excluded? : ScopeStep → Option (Nat × Nat)
  | .exclude span => some span
  | _ => none

end ScopeStep

namespace Scope

/-- The scope after a step. -/
def perform (s : Scope) : ScopeStep → Scope
  | .declare name offset => s.declare name offset
  | .declareImport name binding => s.declareImport name binding
  | .reference name offset => s.reference name offset
  | .referenceType name => s.referenceType name
  | .exclude span => s.exclude span

/-- The scope after a run of steps. -/
def performAll (s : Scope) (steps : List ScopeStep) : Scope := steps.foldl perform s

@[simp] theorem performAll_nil (s : Scope) : s.performAll [] = s := rfl

@[simp] theorem performAll_cons (s : Scope) (step : ScopeStep) (steps : List ScopeStep) :
    s.performAll (step :: steps) = (s.perform step).performAll steps := rfl

theorem performAll_append (s : Scope) (steps more : List ScopeStep) :
    s.performAll (steps ++ more) = (s.performAll steps).performAll more := List.foldl_append

/-! ## Fields -/

/-- **What a field holds after a run.** It takes in the items of the steps that concern it. -/
theorem field_performAll {β γ : Type} (field : Scope → γ) (item? : ScopeStep → Option β)
    (add : γ → β → γ)
    (h : ∀ s step, field (s.perform step) = (item? step).elim (field s) (add (field s)))
    (s : Scope) (steps : List ScopeStep) :
    field (s.performAll steps) = (steps.filterMap item?).foldl add (field s) := by
  induction steps generalizing s with
  | nil => rfl
  | cons step steps ih =>
    rw [performAll_cons, ih, h, List.filterMap_cons]
    cases item? step with
    | none => rfl
    | some b => rfl

theorem mem_foldl_insertNew {α : Type} [DecidableEq α] {a : α} (items set : List α) :
    a ∈ items.foldl (fun set b => insertNew b set) set ↔ a ∈ set ∨ a ∈ items := by
  induction items generalizing set with
  | nil => simp
  | cons b items ih =>
    rw [List.foldl_cons, ih, mem_insertNew, List.mem_cons]
    constructor
    · rintro ((rfl | h) | h)
      · exact Or.inr (Or.inl rfl)
      · exact Or.inl h
      · exact Or.inr (Or.inr h)
    · rintro (h | rfl | h)
      · exact Or.inl (Or.inr h)
      · exact Or.inl (Or.inl rfl)
      · exact Or.inr h

theorem mem_declared_performAll {s : Scope} {steps : List ScopeStep} {name : String} :
    name ∈ (s.performAll steps).declared
      ↔ name ∈ s.declared ∨ name ∈ steps.filterMap ScopeStep.declared? := by
  rw [field_performAll declared ScopeStep.declared? (fun set b => insertNew b set)
    (fun s step => by cases step <;> rfl), mem_foldl_insertNew]

theorem mem_excluded_performAll {s : Scope} {steps : List ScopeStep} {span : Nat × Nat} :
    span ∈ (s.performAll steps).excluded
      ↔ span ∈ s.excluded ∨ span ∈ steps.filterMap ScopeStep.excluded? := by
  rw [field_performAll excluded ScopeStep.excluded? (fun set b => insertNew b set)
    (fun s step => by cases step <;> rfl), mem_foldl_insertNew]

theorem mem_typeReferences_performAll {s : Scope} {steps : List ScopeStep} {name : String} :
    name ∈ (s.performAll steps).typeReferences
      ↔ name ∈ s.typeReferences ∨ name ∈ steps.filterMap ScopeStep.typeReferenced? := by
  rw [field_performAll typeReferences ScopeStep.typeReferenced? (fun set b => insertNew b set)
    (fun s step => by cases step <;> rfl), mem_foldl_insertNew]

/-- **The first declaration of a name decides its offset.** -/
theorem declarations_performAll (steps : List ScopeStep) :
    (({} : Scope).performAll steps).declarations
      = tableOf List.head? (steps.filterMap ScopeStep.declaredAt?) := by
  have hfold := field_performAll declarations ScopeStep.declaredAt?
    (fun table item => upsert item.1 (·.getD item.2) table)
    (fun s step => by cases step <;> rfl) {} steps
  have hstep (offsets : List Nat) (offset : Nat) :
      (offsets ++ [offset]).head? = some (offsets.head?.getD offset) := by
    cases offsets with
    | nil => rfl
    | cons o os => rfl
  rw [hfold]
  exact foldl_upsert_tableOf (fun offset old => old.getD offset) List.head?_nil hstep _ []

/-- **The last import of a name decides its binding,** and the first one its place. -/
theorem imports_performAll (steps : List ScopeStep) :
    (({} : Scope).performAll steps).imports
      = tableOf List.getLast? (steps.filterMap ScopeStep.imported?) := by
  have hfold := field_performAll imports ScopeStep.imported?
    (fun table item => upsert item.1 (fun _ => item.2) table)
    (fun s step => by cases step <;> rfl) {} steps
  rw [hfold]
  exact foldl_upsert_tableOf (fun binding _ => binding) List.getLast?_nil
    (fun bindings binding => List.getLast?_concat) _ []

/-- What the references of a name amount to: their offsets, if there are any. -/
def offsetsOf (offsets : List Nat) : Option (List Nat) :=
  if offsets.isEmpty then none else some offsets

theorem offsetsOf_concat (offsets : List Nat) (offset : Nat) :
    offsetsOf (offsets ++ [offset]) = some ((offsetsOf offsets).getD [] ++ [offset]) := by
  cases offsets with
  | nil => rfl
  | cons o os => simp [offsetsOf]

theorem flatMap_offsetsOf {β : Type} (offsets : List Nat) (f : Nat → β) :
    ((offsetsOf offsets).toList.flatMap fun os => os.map f) = offsets.map f := by
  cases offsets with
  | nil => rfl
  | cons o os => simp [offsetsOf]

/-- **All references of a name are kept,** at the place of the first one. -/
theorem references_performAll (steps : List ScopeStep) :
    (({} : Scope).performAll steps).references
      = tableOf offsetsOf (steps.filterMap ScopeStep.referenced?) := by
  have hfold := field_performAll references ScopeStep.referenced?
    (fun table item => upsert item.1 (fun old => old.getD [] ++ [item.2]) table)
    (fun s step => by cases step <;> rfl) {} steps
  rw [hfold]
  exact foldl_upsert_tableOf (fun offset old => old.getD [] ++ [offset]) rfl
    offsetsOf_concat _ []

end Scope

end PatchLint
