/-!
# Scopes

A scope is what one pass over a tree records about names: where they are declared, imported and
referenced, and which spans are no references. It is flat: the rules only ask whether a name is
bound anywhere in the file.

Names keep the order of their first appearance. The first declaration of a name decides its offset,
the last import of a name decides its binding, and all references of a name are kept.
-/

namespace PatchLint

/-- Where an imported name comes from; the span is that of the whole import. -/
structure ImportBinding where
  start : Nat
  stop : Nat
  module : String
  deriving DecidableEq, Repr

/-- What is known about the names of a file. -/
structure Scope where
  declared : List String := []
  declarations : List (String × Nat) := []
  imports : List (String × ImportBinding) := []
  references : List (String × List Nat) := []
  typeReferences : List String := []
  excluded : List (Nat × Nat) := []
  deriving DecidableEq, Repr

namespace Scope

variable {α : Type} [DecidableEq α]

/-! ## Ordered collections -/

/-- Adds an element to a set. -/
def insertNew (a : α) (xs : List α) : List α := if a ∈ xs then xs else xs ++ [a]

/-- Changes the value of a key, or adds the key at the end. -/
def upsert {β : Type} (key : α) (change : Option β → β) : List (α × β) → List (α × β)
  | [] => [(key, change none)]
  | (k, v) :: rest =>
    if k = key then (k, change (some v)) :: rest else (k, v) :: upsert key change rest

/-- The value of a key. -/
def find? {β : Type} (key : α) : List (α × β) → Option β
  | [] => none
  | (k, v) :: rest => if k = key then some v else find? key rest

@[simp] theorem mem_insertNew {a b : α} {xs : List α} : b ∈ insertNew a xs ↔ b = a ∨ b ∈ xs := by
  unfold insertNew
  split
  · next h => exact ⟨Or.inr, fun hb => hb.elim (fun e => e ▸ h) id⟩
  · simp [or_comm]

/-! ## Recording -/

/-- Records a declaration; an earlier offset of the name stays. -/
def declare (s : Scope) (name : String) (offset : Nat) : Scope :=
  { s with
    declared := insertNew name s.declared
    declarations := upsert name (·.getD offset) s.declarations }

/-- Records an import; a later binding of the name replaces an earlier one. -/
def declareImport (s : Scope) (name : String) (binding : ImportBinding) : Scope :=
  let s := s.declare name binding.start
  { s with imports := upsert name (fun _ => binding) s.imports }

/-- Records a use of a name. -/
def reference (s : Scope) (name : String) (offset : Nat) : Scope :=
  { s with references := upsert name (fun old => old.getD [] ++ [offset]) s.references }

/-- Records a use of a name as a type. -/
def referenceType (s : Scope) (name : String) : Scope :=
  { s with typeReferences := insertNew name s.typeReferences }

/-- Marks a span as no reference. -/
def exclude (s : Scope) (span : Nat × Nat) : Scope :=
  { s with excluded := insertNew span s.excluded }

/-! ## Questions -/

/-- Whether a span is marked as no reference. -/
def isExcluded (s : Scope) (span : Nat × Nat) : Bool := s.excluded.contains span

/-- The imported names, in the order of their first import. -/
def imported (s : Scope) : List String := s.imports.map (·.1)

/-- The names in use, in the order of their first use. -/
def used (s : Scope) : List String := s.references.map (·.1)

/-- Whether a name is bound. -/
def isDeclared (s : Scope) (name : String) : Bool := s.declared.contains name

end Scope

end PatchLint
