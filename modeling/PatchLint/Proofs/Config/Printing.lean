import PatchLint.Proofs.Config.Problems

/-!
# Values that cannot be printed

A value is printed from the outside in and from the front to the back, up to the first fault. So that it has more
levels than calls can have is needed for `Value.printsTooDeep`, but it is not enough: a number with too many digits
may come first.

* `exists_lt_depth_of_printsTooDeep` — what is nested too deeply has more levels than the limit
* `depth_le_of_lookup` — a member of a table has fewer levels than the table
* `choiceTooDeep_iff`, `severityTooDeep_iff`, `providerTooDeep_iff` — which settings are printed
-/

namespace PatchLint

open Json (lookup)

namespace Value

/-! ## Levels -/

mutual

/-- How many levels a value has. -/
def depth : Value → Nat
  | .arr items => itemsDepth items + 1
  | .table fields => fieldsDepth fields + 1
  | _ => 1

/-- How many levels the deepest of some values has. -/
def itemsDepth : List Value → Nat
  | [] => 0
  | v :: rest => max v.depth (itemsDepth rest)

/-- How many levels the deepest member of a table has. -/
def fieldsDepth : List (String × Value) → Nat
  | [] => 0
  | (_, v) :: rest => max v.depth (fieldsDepth rest)

end

variable {limit : Option Nat}

mutual

theorem exists_lt_of_printFault? : ∀ (v : Value) (levels : Nat),
    v.printFault? limit levels = some .tooDeep → ∃ n, limit = some n ∧ n < levels + v.depth
  | v, levels, h => by
    rw [printFault?.eq_def] at h
    split at h
    · next hdeep =>
      obtain ⟨n, hn, hle⟩ := (Option.any_eq_true _ _).mp hdeep
      have hpos : 0 < v.depth := by cases v <;> simp [depth]
      exact ⟨n, hn, Nat.lt_of_le_of_lt (of_decide_eq_true hle) (Nat.lt_add_of_pos_right hpos)⟩
    · cases v with
      | arr items =>
        obtain ⟨n, hn, hlt⟩ := exists_lt_of_itemsFault? items (levels + 1) h
        refine ⟨n, hn, ?_⟩
        rw [depth]
        omega
      | table fields =>
        obtain ⟨n, hn, hlt⟩ := exists_lt_of_fieldsFault? fields (levels + 1) h
        refine ⟨n, hn, ?_⟩
        rw [depth]
        omega
      | int n =>
        dsimp only at h
        split at h <;> cases h
      | null | bool _ | float _ | str _ | moment _ => cases h

theorem exists_lt_of_itemsFault? : ∀ (items : List Value) (levels : Nat),
    itemsFault? limit levels items = some .tooDeep → ∃ n, limit = some n ∧ n < levels + itemsDepth items
  | [], _, h => by cases h
  | v :: rest, levels, h => by
    rw [itemsFault?, Option.or_eq_some_iff] at h
    rw [itemsDepth]
    rcases h with h | ⟨-, h⟩
    · obtain ⟨n, hn, hlt⟩ := exists_lt_of_printFault? v levels h
      exact ⟨n, hn, by omega⟩
    · obtain ⟨n, hn, hlt⟩ := exists_lt_of_itemsFault? rest levels h
      exact ⟨n, hn, by omega⟩

theorem exists_lt_of_fieldsFault? : ∀ (fields : List (String × Value)) (levels : Nat),
    fieldsFault? limit levels fields = some .tooDeep → ∃ n, limit = some n ∧ n < levels + fieldsDepth fields
  | [], _, h => by cases h
  | (_, v) :: rest, levels, h => by
    rw [fieldsFault?, Option.or_eq_some_iff] at h
    rw [fieldsDepth]
    rcases h with h | ⟨-, h⟩
    · obtain ⟨n, hn, hlt⟩ := exists_lt_of_printFault? v levels h
      exact ⟨n, hn, by omega⟩
    · obtain ⟨n, hn, hlt⟩ := exists_lt_of_fieldsFault? rest levels h
      exact ⟨n, hn, by omega⟩

end

/-- **What is nested too deeply has more levels than the limit.** -/
theorem exists_lt_depth_of_printsTooDeep {v : Value} (h : v.printsTooDeep limit = true) :
    ∃ n, limit = some n ∧ n < v.depth := by
  obtain ⟨n, hn, hlt⟩ := exists_lt_of_printFault? v 0 (beq_iff_eq.mp h)
  exact ⟨n, hn, by omega⟩

theorem depth_le_of_mem {key : String} {v : Value} {fields : List (String × Value)}
    (h : (key, v) ∈ fields) : v.depth ≤ fieldsDepth fields := by
  induction fields with
  | nil => cases h
  | cons field fields ih =>
    rw [fieldsDepth]
    rcases List.mem_cons.mp h with rfl | h
    · exact Nat.le_max_left _ _
    · exact Nat.le_trans (ih h) (Nat.le_max_right _ _)

theorem depth_le_of_lookup {key : String} {v : Value} {fields : List (String × Value)}
    (h : lookup key fields = some v) : v.depth ≤ fieldsDepth fields := depth_le_of_mem (mem_of_lookup h)

end Value

/-! ## Settings -/

variable {limit : Option Nat}

theorem choiceTooDeep_iff {α : Type} {ofName? : String → Option α} {name : α → String}
    (hname : ∀ text a, ofName? text = some a ↔ text = name a) {settings : List (String × Value)}
    {key : String} :
    choiceTooDeep limit ofName? settings key = true ↔
      ∃ v, lookup key settings = some v ∧ ¬v.IsNameOf name ∧ v.printsTooDeep limit = true := by
  simp only [choiceTooDeep, Option.any_eq_true, Bool.and_eq_true, Option.isNone_iff_eq_none,
    text?_bind_eq_none_iff hname]

theorem severityTooDeep_iff {key : String} {v : Value} :
    severityTooDeep limit (key, v) = true ↔
      IsRuleKey key ∧ ∃ fields w, v = .table fields ∧ lookup "severity" fields = some w ∧
        w.text? = none ∧ w.printsTooDeep limit = true := by
  unfold severityTooDeep
  dsimp only
  cases hkey : ruleOfKey? key with
  | none => simp [ruleOfKey?_eq_none_iff.mp hkey]
  | some rule => cases v <;> simp [isRuleKey_of_ruleOfKey? hkey, Option.any_eq_true]

theorem providerTooDeep_iff {given : Option Value} :
    providerTooDeep limit given = true ↔
      ∃ fields v, given = some (.table fields) ∧ lookup "provider" fields = some v ∧
        ¬v.IsNameOf Provider.name ∧ v.printsTooDeep limit = true := by
  cases given with
  | none => simp [providerTooDeep]
  | some v =>
    cases v <;> simp [providerTooDeep, choiceTooDeep_iff fun _ _ => Provider.ofName?_eq_some_iff]

end PatchLint
