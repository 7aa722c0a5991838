import Mathlib.Data.List.Nodup
import PatchLint.Proofs.Scope.Steps

/-!
# The collections of a scope agree

A scope keeps the same names in several collections, each with its own rule for a name that comes again:
a set, the first offset, the last binding, all offsets. No step lets them drift apart
(`Consistent.perform`), so they agree after any run (`consistent_performAll`).
-/

namespace PatchLint.Scope

/-! ## Keys -/

section Keys

variable {α β : Type} [DecidableEq α]

/-- A changed collection has its keys as before, with the key that it may have been lacking. -/
theorem map_fst_upsert (key : α) (change : Option β → β) (table : List (α × β)) :
    (upsert key change table).map (·.1) = insertNew key (table.map (·.1)) := by
  induction table with
  | nil => rfl
  | cons item table ih =>
    obtain ⟨k, v⟩ := item
    rw [upsert]
    by_cases hk : k = key
    · rw [if_pos hk, insertNew, if_pos (by simp [hk])]
      rfl
    · rw [if_neg hk, List.map_cons, List.map_cons, ih, insertNew, insertNew]
      have hkey : key ∈ k :: table.map (·.1) ↔ key ∈ table.map (·.1) :=
        List.mem_cons.trans (or_iff_right fun e => hk e.symm)
      by_cases hmem : key ∈ table.map (·.1)
      · rw [if_pos hmem, if_pos (hkey.mpr hmem)]
      · rw [if_neg hmem, if_neg fun h => hmem (hkey.mp h)]
        rfl

theorem nodup_insertNew {a : α} {xs : List α} (h : xs.Nodup) : (insertNew a xs).Nodup := by
  rw [insertNew]
  split
  · exact h
  · next ha =>
    rw [← List.concat_eq_append]
    exact h.concat ha

/-- What holds of all values, and of every changed value, holds of all values after a change. -/
theorem forall_mem_upsert {P : β → Prop} {key : α} {change : Option β → β} {table : List (α × β)}
    (htable : ∀ item ∈ table, P item.2) (hchange : ∀ old, P (change old)) :
    ∀ item ∈ upsert key change table, P item.2 := by
  induction table with
  | nil => exact List.forall_mem_singleton.mpr (hchange none)
  | cons item table ih =>
    obtain ⟨k, v⟩ := item
    rw [List.forall_mem_cons] at htable
    rw [upsert]
    split
    · exact List.forall_mem_cons.mpr ⟨hchange (some v), htable.2⟩
    · exact List.forall_mem_cons.mpr ⟨htable.1, ih htable.2⟩

end Keys

/-! ## Agreement -/

/-- Whether the collections of a scope agree. -/
structure Consistent (s : Scope) : Prop where
  /-- The declared names are those with an offset, in the same order. -/
  declared_eq : s.declared = s.declarations.map (·.1)
  /-- Imported names are declared. -/
  imported_subset : s.imported ⊆ s.declared
  /-- A name has one binding only. -/
  imported_nodup : s.imported.Nodup
  /-- A name in use has an offset. -/
  offsets_ne_nil : ∀ item ∈ s.references, item.2 ≠ []

theorem consistent_empty : Consistent {} where
  declared_eq := rfl
  imported_subset := List.nil_subset _
  imported_nodup := List.nodup_nil
  offsets_ne_nil := fun _ hitem => absurd hitem List.not_mem_nil

namespace Consistent

variable {s : Scope}

theorem declare (h : s.Consistent) (name : String) (offset : Nat) :
    (s.declare name offset).Consistent where
  declared_eq := by
    show insertNew name s.declared = (upsert name _ s.declarations).map (·.1)
    rw [map_fst_upsert, h.declared_eq]
  imported_subset := fun other hother => mem_insertNew.mpr (Or.inr (h.imported_subset hother))
  imported_nodup := h.imported_nodup
  offsets_ne_nil := h.offsets_ne_nil

theorem declareImport (h : s.Consistent) (name : String) (binding : ImportBinding) :
    (s.declareImport name binding).Consistent := by
  have hdeclare := h.declare name binding.start
  have himported : (s.declareImport name binding).imported = insertNew name s.imported :=
    map_fst_upsert name _ s.imports
  refine ⟨hdeclare.declared_eq, ?_, ?_, hdeclare.offsets_ne_nil⟩
  · rw [himported]
    intro other hother
    rcases mem_insertNew.mp hother with rfl | hother
    · exact mem_insertNew.mpr (Or.inl rfl)
    · exact hdeclare.imported_subset hother
  · rw [himported]
    exact nodup_insertNew h.imported_nodup

theorem reference (h : s.Consistent) (name : String) (offset : Nat) :
    (s.reference name offset).Consistent where
  declared_eq := h.declared_eq
  imported_subset := h.imported_subset
  imported_nodup := h.imported_nodup
  offsets_ne_nil := by
    refine forall_mem_upsert (P := (· ≠ [])) h.offsets_ne_nil fun old => ?_
    exact List.append_ne_nil_of_right_ne_nil _ (List.cons_ne_nil offset [])

/-- **No step lets the collections drift apart.** -/
theorem perform (h : s.Consistent) (step : ScopeStep) : (s.perform step).Consistent := by
  cases step with
  | declare name offset => exact h.declare name offset
  | declareImport name binding => exact h.declareImport name binding
  | reference name offset => exact h.reference name offset
  | referenceType name => exact ⟨h.declared_eq, h.imported_subset, h.imported_nodup, h.offsets_ne_nil⟩
  | exclude span => exact ⟨h.declared_eq, h.imported_subset, h.imported_nodup, h.offsets_ne_nil⟩

theorem performAll (h : s.Consistent) (steps : List ScopeStep) : (s.performAll steps).Consistent := by
  induction steps generalizing s with
  | nil => exact h
  | cons step steps ih => exact ih (h.perform step)

end Consistent

/-- **The collections agree after any run of steps.** -/
theorem consistent_performAll (steps : List ScopeStep) : (({} : Scope).performAll steps).Consistent :=
  consistent_empty.performAll steps

end PatchLint.Scope
