import Mathlib.Order.Lattice

/-!
# Stable sorting by a key

A list is sorted by a key of its elements. Several elements can have one key, so the order alone does not say
what the sorted list is. But sorting is stable: the elements of one key stay in the order in which they are given,
and a sorted list is determined by what it holds of each key.

* `pairwise_mergeSort_key` — the keys of the sorted list increase
* `filter_mergeSort` — what ties keeps its order
* `eq_of_filter_eq` — a sorted list is determined by what it holds of each key
* `mergeSort_eq_iff` — two lists are sorted alike exactly if they agree on each key
-/

namespace PatchLint

variable {α κ : Type} [LinearOrder κ] {key : α → κ} {le : α → α → Bool}

theorem trans_of_key (hle : ∀ a b, le a b = true ↔ key a ≤ key b) (a b c : α) (hab : le a b = true)
    (hbc : le b c = true) : le a c = true :=
  (hle a c).mpr (((hle a b).mp hab).trans ((hle b c).mp hbc))

theorem total_of_key (hle : ∀ a b, le a b = true ↔ key a ≤ key b) (a b : α) : (le a b || le b a) = true := by
  rw [Bool.or_eq_true, hle, hle]
  exact le_total (key a) (key b)

theorem pairwise_mergeSort_key (hle : ∀ a b, le a b = true ↔ key a ≤ key b) (l : List α) :
    (l.mergeSort le).Pairwise fun a b => key a ≤ key b :=
  (List.pairwise_mergeSort (trans_of_key hle) (total_of_key hle) l).imp fun h => (hle _ _).mp h

/-- **What ties keeps its order.** -/
theorem filter_mergeSort (hle : ∀ a b, le a b = true ↔ key a ≤ key b) (l : List α) (k : κ) :
    (l.mergeSort le).filter (fun a => key a = k) = l.filter (fun a => key a = k) := by
  have htied : (l.filter fun a => key a = k).Pairwise fun a b => le a b = true := by
    refine List.pairwise_of_forall_mem_list fun a ha b hb => (hle a b).mpr (le_of_eq ?_)
    exact (of_decide_eq_true (List.mem_filter.mp ha).2).trans
      (of_decide_eq_true (List.mem_filter.mp hb).2).symm
  have hsub : (l.filter fun a => key a = k).Sublist (l.mergeSort le) :=
    List.sublist_mergeSort (trans_of_key hle) (total_of_key hle) htied List.filter_sublist
  -- what is found among the sorted elements of the key is all there is of it
  have hwithin := hsub.filter fun a => decide (key a = k)
  rw [List.filter_filter] at hwithin
  simp only [Bool.and_self] at hwithin
  exact (hwithin.eq_of_length ((List.mergeSort_perm l le).filter _).length_eq.symm).symm

theorem mem_iff_of_filter_eq {s s' : List α}
    (h : ∀ k, s.filter (fun a => key a = k) = s'.filter (fun a => key a = k)) (a : α) : a ∈ s ↔ a ∈ s' := by
  have ha := congrArg (a ∈ ·) (h (key a))
  simpa [List.mem_filter] using ha

/-- **A sorted list is determined by what it holds of each key.** -/
theorem eq_of_filter_eq {s s' : List α} (hs : s.Pairwise fun a b => key a ≤ key b)
    (hs' : s'.Pairwise fun a b => key a ≤ key b)
    (h : ∀ k, s.filter (fun a => key a = k) = s'.filter (fun a => key a = k)) : s = s' := by
  induction s generalizing s' with
  | nil =>
    cases s' with
    | nil => rfl
    | cons b s' => exact absurd ((mem_iff_of_filter_eq h b).mpr List.mem_cons_self) List.not_mem_nil
  | cons a s ih =>
    cases s' with
    | nil => exact absurd ((mem_iff_of_filter_eq h a).mp List.mem_cons_self) List.not_mem_nil
    | cons b s' =>
      obtain ⟨hfirst, hsorted⟩ := List.pairwise_cons.mp hs
      obtain ⟨hfirst', hsorted'⟩ := List.pairwise_cons.mp hs'
      -- both heads have the least key, so they are the first of that key
      have hab : key a ≤ key b := by
        rcases List.mem_cons.mp ((mem_iff_of_filter_eq h b).mpr List.mem_cons_self) with rfl | hb
        · exact le_refl _
        · exact hfirst b hb
      have hba : key b ≤ key a := by
        rcases List.mem_cons.mp ((mem_iff_of_filter_eq h a).mp List.mem_cons_self) with rfl | ha
        · exact le_refl _
        · exact hfirst' a ha
      have hkey : key b = key a := le_antisymm hba hab
      have hheads := h (key a)
      rw [List.filter_cons_of_pos (by simp), List.filter_cons_of_pos (by simp [hkey])] at hheads
      obtain rfl := (List.cons.inj hheads).1
      have hrest : ∀ k, s.filter (fun c => key c = k) = s'.filter (fun c => key c = k) := by
        intro k
        by_cases hak : key a = k
        · simpa [hak] using h k
        · simpa [hak] using h k
      rw [ih hsorted hsorted' hrest]

/-- **Two lists are sorted alike exactly if they agree on each key.** -/
theorem mergeSort_eq_iff (hle : ∀ a b, le a b = true ↔ key a ≤ key b) {l l' : List α} :
    l.mergeSort le = l'.mergeSort le ↔
      ∀ k, l.filter (fun a => key a = k) = l'.filter (fun a => key a = k) := by
  constructor
  · intro h k
    rw [← filter_mergeSort hle l k, h, filter_mergeSort hle l' k]
  · intro h
    refine eq_of_filter_eq (pairwise_mergeSort_key hle l) (pairwise_mergeSort_key hle l') fun k => ?_
    rw [filter_mergeSort hle, filter_mergeSort hle, h k]

end PatchLint
