import Mathlib.Data.List.Basic
import PatchLint.Scope.Basic

/-!
# What is recorded under a key

A scope records names in ordered collections, one entry at a time (`upsert`). `tableOf` says at once
what a whole run of entries leaves there: the keys in the order of their first entries, and for each
key what its entries amount to, in the order in which they came. `foldl_upsert_tableOf` says that
recording one by one builds this table.

What the entries of a key amount to is told by a function on lists, which must give nothing for no
entry, and for one entry more what `upsert` makes of the value before it.
-/

namespace PatchLint.Scope

variable {α β γ : Type} [DecidableEq α]

/-! ## First appearances -/

theorem nodup_eraseDups : ∀ l : List α, l.eraseDups.Nodup
  | [] => by rw [List.eraseDups_nil]; exact List.nodup_nil
  | a :: l => by
    rw [List.eraseDups_cons, List.nodup_cons]
    refine ⟨?_, nodup_eraseDups _⟩
    intro h
    have h := (List.mem_filter.mp (List.mem_eraseDups.mp h)).2
    simp at h
termination_by l => l.length
decreasing_by
  rw [List.length_cons]
  exact Nat.lt_succ_of_le (List.length_filter_le _ _)

/-- One key more is a new one, or is there already. -/
theorem eraseDups_concat (l : List α) (a : α) :
    (l ++ [a]).eraseDups = if a ∈ l then l.eraseDups else l.eraseDups ++ [a] := by
  rw [List.eraseDups_append]
  by_cases h : a ∈ l
  · simp [List.removeAll, h]
  · simp [List.removeAll, h, List.eraseDups_cons]

/-! ## Tables -/

/-- What was entered under a key. -/
def valuesOf (key : α) (items : List (α × γ)) : List γ := (items.filter (·.1 = key)).map (·.2)

/-- The keys in the order of their first entries, each with what its entries amount to. -/
def tableOf (f : List γ → Option β) (items : List (α × γ)) : List (α × β) :=
  (items.map (·.1)).eraseDups.filterMap fun key => (f (valuesOf key items)).map (key, ·)

theorem valuesOf_concat_self (items : List (α × γ)) (key : α) (c : γ) :
    valuesOf key (items ++ [(key, c)]) = valuesOf key items ++ [c] := by
  simp [valuesOf]

theorem valuesOf_concat_ne (items : List (α × γ)) {key k : α} (c : γ) (h : k ≠ key) :
    valuesOf key (items ++ [(k, c)]) = valuesOf key items := by
  simp [valuesOf, h]

theorem valuesOf_eq_nil {items : List (α × γ)} {key : α} (h : key ∉ items.map (·.1)) :
    valuesOf key items = [] := by
  rw [valuesOf, List.map_eq_nil_iff, List.filter_eq_nil_iff]
  intro item hitem hkey
  exact h (List.mem_map.mpr ⟨item, hitem, of_decide_eq_true hkey⟩)

theorem valuesOf_ne_nil {items : List (α × γ)} {key : α} (h : key ∈ items.map (·.1)) :
    valuesOf key items ≠ [] := by
  obtain ⟨item, hitem, rfl⟩ := List.mem_map.mp h
  intro hnil
  rw [valuesOf, List.map_eq_nil_iff, List.filter_eq_nil_iff] at hnil
  exact hnil item hitem (decide_eq_true rfl)

/-! ## Reading tables -/

theorem mem_valuesOf {items : List (α × γ)} {key : α} {c : γ} :
    c ∈ valuesOf key items ↔ (key, c) ∈ items := by
  simp [valuesOf]

theorem mem_tableOf {f : List γ → Option β} {items : List (α × γ)} {key : α} {b : β} :
    (key, b) ∈ tableOf f items ↔ key ∈ items.map (·.1) ∧ f (valuesOf key items) = some b := by
  rw [tableOf, List.mem_filterMap]
  constructor
  · rintro ⟨key', hkey', hb⟩
    obtain ⟨b', hb', heq⟩ := Option.map_eq_some_iff.mp hb
    cases heq
    exact ⟨List.mem_eraseDups.mp hkey', hb'⟩
  · rintro ⟨hkey, hb⟩
    exact ⟨key, List.mem_eraseDups.mpr hkey, Option.map_eq_some_iff.mpr ⟨b, hb, rfl⟩⟩

/-- The keys of a table, if every list of entries amounts to something. -/
theorem map_fst_tableOf {f : List γ → Option β} (h : ∀ cs, cs ≠ [] → (f cs).isSome)
    (items : List (α × γ)) : (tableOf f items).map (·.1) = (items.map (·.1)).eraseDups := by
  rw [tableOf, List.map_filterMap]
  refine (List.filterMap_congr fun key hkey => ?_).trans List.filterMap_some
  obtain ⟨b, hb⟩ :=
    Option.isSome_iff_exists.mp (h _ (valuesOf_ne_nil (List.mem_eraseDups.mp hkey)))
  rw [hb]
  rfl

/-- Choosing entries of a table by their keys is choosing keys. -/
theorem flatMap_filter_tableOf {δ : Type} (f : List γ → Option β) (items : List (α × γ))
    (p : α → Bool) (g : α × β → List δ) :
    ((tableOf f items).filter fun item => p item.1).flatMap g
      = ((items.map (·.1)).eraseDups.filter p).flatMap fun key =>
          (f (valuesOf key items)).toList.flatMap fun b => g (key, b) := by
  unfold tableOf
  induction (items.map (·.1)).eraseDups with
  | nil => rfl
  | cons key keys ih =>
    rw [List.filterMap_cons, List.filter_cons]
    by_cases hp : p key = true
    · rw [if_pos hp, List.flatMap_cons, ← ih]
      cases f (valuesOf key items) with
      | none => rfl
      | some b =>
        simp only [Option.map_some, List.filter_cons, hp, if_true, List.flatMap_cons,
          Option.toList_some, List.flatMap_nil, List.append_nil]
    · rw [if_neg hp, ← ih]
      cases f (valuesOf key items) with
      | none => rfl
      | some b => simp only [Option.map_some, List.filter_cons, hp, if_false, Bool.false_eq_true]

/-! ## Recording -/

/-- A key that is not there yet comes last. -/
theorem upsert_filterMap_of_not_mem {keys : List α} {k : α} (value : α → Option β)
    (change : Option β → β) (h : k ∉ keys) :
    upsert k change (keys.filterMap fun key => (value key).map (key, ·))
      = keys.filterMap (fun key => (value key).map (key, ·)) ++ [(k, change none)] := by
  induction keys with
  | nil => rfl
  | cons key keys ih =>
    rw [List.mem_cons, not_or] at h
    rw [List.filterMap_cons]
    cases value key with
    | none => exact ih h.2
    | some b =>
      show upsert k change ((key, b) :: _) = _
      rw [upsert, if_neg fun e => h.1 e.symm, ih h.2]
      rfl

/-- A key that is there keeps its place, and the others keep their values. -/
theorem upsert_filterMap_of_mem {keys : List α} {k : α} {value value' : α → Option β}
    {change : Option β → β} {b : β} (hnd : keys.Nodup) (h : k ∈ keys) (hb : value k = some b)
    (hself : value' k = some (change (some b))) (hne : ∀ key, key ≠ k → value' key = value key) :
    upsert k change (keys.filterMap fun key => (value key).map (key, ·))
      = keys.filterMap fun key => (value' key).map (key, ·) := by
  induction keys with
  | nil => cases h
  | cons key keys ih =>
    rw [List.nodup_cons] at hnd
    rw [List.filterMap_cons, List.filterMap_cons]
    by_cases hk : key = k
    · subst hk
      -- the key is not met again, so the other values stay
      have hrest : (keys.filterMap fun key => (value' key).map (key, ·))
          = keys.filterMap fun key => (value key).map (key, ·) := by
        refine List.filterMap_congr fun key' hkey' => ?_
        rw [hne key' fun e => hnd.1 (e ▸ hkey')]
      rw [hb, hself, hrest]
      show upsert key change ((key, b) :: _) = _
      rw [upsert, if_pos rfl]
      rfl
    · have hmem : k ∈ keys := (List.mem_cons.mp h).resolve_left fun e => hk e.symm
      rw [hne key hk]
      cases value key with
      | none => exact ih hnd.2 hmem
      | some b' =>
        show upsert k change ((key, b') :: _) = _
        rw [upsert, if_neg hk, ih hnd.2 hmem]
        rfl

variable {f : List γ → Option β} (change : γ → Option β → β)

/-- **Recording one entry more.** -/
theorem upsert_tableOf (hnil : f [] = none)
    (hstep : ∀ cs c, f (cs ++ [c]) = some (change c (f cs))) (items : List (α × γ)) (k : α) (c : γ) :
    upsert k (change c) (tableOf f items) = tableOf f (items ++ [(k, c)]) := by
  have hne (key : α) (hkey : key ≠ k) :
      f (valuesOf key (items ++ [(k, c)])) = f (valuesOf key items) := by
    rw [valuesOf_concat_ne items c fun e => hkey e.symm]
  have hself : f (valuesOf k (items ++ [(k, c)])) = some (change c (f (valuesOf k items))) := by
    rw [valuesOf_concat_self, hstep]
  unfold tableOf
  rw [List.map_append, List.map_singleton, eraseDups_concat]
  by_cases hk : k ∈ items.map (·.1)
  · rw [if_pos hk]
    -- the key has entries, so there is a value under it
    obtain ⟨cs, c', hcs⟩ :=
      (List.eq_nil_or_concat (valuesOf k items)).resolve_left (valuesOf_ne_nil hk)
    have hb : f (valuesOf k items) = some (change c' (f cs)) := by
      rw [hcs, List.concat_eq_append, hstep]
    rw [hb] at hself
    exact upsert_filterMap_of_mem (nodup_eraseDups _) (List.mem_eraseDups.mpr hk) hb hself hne
  · rw [if_neg hk, List.filterMap_append,
      upsert_filterMap_of_not_mem _ _ (fun h => hk (List.mem_eraseDups.mp h))]
    rw [valuesOf_eq_nil hk, hnil] at hself
    congr 1
    · refine List.filterMap_congr fun key hkey => ?_
      rw [hne key fun e => hk (e ▸ List.mem_eraseDups.mp hkey)]
    · simp [hself]

/-- **Recording entries one by one builds their table.** -/
theorem foldl_upsert_tableOf (hnil : f [] = none)
    (hstep : ∀ cs c, f (cs ++ [c]) = some (change c (f cs))) (items done : List (α × γ)) :
    items.foldl (fun table item => upsert item.1 (change item.2) table) (tableOf f done)
      = tableOf f (done ++ items) := by
  induction items generalizing done with
  | nil => rw [List.append_nil]; rfl
  | cons item items ih =>
    rw [List.foldl_cons, upsert_tableOf change hnil hstep, ih, List.append_assoc, List.singleton_append]

end PatchLint.Scope
