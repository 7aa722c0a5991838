import PatchLint.Diff.Script

/-!
# Edit scripts are sound

What an edit script promises, whatever the run it happens to choose:

* `script_old`, `script_new` — the segments of `script a b` spell out `a` on the one side and `b` on
  the other
* `script_self` — a list is reached from itself without a change

For the first, every run that the search keeps is a run of both lists (`Run.Shared`). For the second,
the search is followed on two equal lists: it never leaves the diagonal, because a run that starts
further back in one of the lists has been met before, with the roles of the lists exchanged.
-/

namespace PatchLint

variable {α : Type} [DecidableEq α]

/-! ## Runs of both lists -/

/-- Whether a run stands in both lists: each is cut into what is in front of it, the run itself and
what is behind it. -/
def Run.Shared (r : Run) (a b : List α) : Prop :=
  ∃ front₁ back₁ front₂ back₂ common,
    a = front₁ ++ common ++ back₁ ∧ b = front₂ ++ common ++ back₂ ∧
      r = ⟨front₁.length, front₂.length, common.length⟩

omit [DecidableEq α] in
theorem Run.shared_empty (a b : List α) : (⟨0, 0, 0⟩ : Run).Shared a b :=
  ⟨[], a, [], b, [], rfl, rfl, rfl⟩

/-- The common front of two lists is a front of both. -/
theorem exists_commonFront (admits : α → Bool) (a b : List α) :
    ∃ common a' b', a = common ++ a' ∧ b = common ++ b' ∧
      commonFront admits a b = common.length := by
  fun_induction commonFront admits a b with
  | case1 x xs y ys h ih =>
    obtain ⟨common, a', b', rfl, rfl, hlen⟩ := ih
    rw [Bool.and_eq_true, decide_eq_true_eq] at h
    obtain ⟨rfl, -⟩ := h
    exact ⟨x :: common, a', b', rfl, rfl, by rw [hlen, List.length_cons]⟩
  | case2 x xs y ys => exact ⟨[], x :: xs, y :: ys, rfl, rfl, rfl⟩
  | case3 a b => exact ⟨[], a, b, rfl, rfl, rfl⟩

theorem scanNew_shared (admits : α → Bool) (front behind seen : List α) (best : Run) (b : List α)
    (h : best.Shared (front.reverse ++ behind) (seen.reverse ++ b)) :
    (scanNew admits front seen best b).Shared (front.reverse ++ behind) (seen.reverse ++ b) := by
  induction b generalizing seen best with
  | nil => exact h
  | cons y ys ih =>
    have hseen : seen.reverse ++ y :: ys = (y :: seen).reverse ++ ys := by simp
    rw [scanNew, hseen]
    refine ih _ _ ?_
    rw [← hseen]
    split
    · obtain ⟨common, front', seen', hf, hs, hlen⟩ := exists_commonFront admits front (y :: seen)
      -- both fronts are reversed, so the common part stands at their ends
      refine ⟨front'.reverse, behind, seen'.reverse, ys, common.reverse, ?_, ?_, ?_⟩
      · rw [hf, List.reverse_append]
      · rw [hseen, hs, List.reverse_append]
      · have h1 := congrArg List.length hf
        have h2 := congrArg List.length hs
        simp only [List.length_append, List.length_cons] at h1 h2
        rw [hlen]
        simp only [List.length_reverse, Run.mk.injEq, and_true]
        omega
    · exact h

theorem scanOld_shared (admits : α → Bool) (b seen : List α) (best : Run) (a : List α)
    (h : best.Shared (seen.reverse ++ a) b) :
    (scanOld admits b seen best a).Shared (seen.reverse ++ a) b := by
  induction a generalizing seen best with
  | nil => exact h
  | cons x xs ih =>
    have hseen : seen.reverse ++ x :: xs = (x :: seen).reverse ++ xs := by simp
    rw [scanOld, hseen]
    exact ih _ _ (scanNew_shared admits (x :: seen) xs [] best b (hseen ▸ h))

theorem Run.Shared.extend {r : Run} {a b : List α} (h : r.Shared a b) : (r.extend a b).Shared a b := by
  obtain ⟨front₁, back₁, front₂, back₂, common, rfl, rfl, rfl⟩ := h
  obtain ⟨x, f₁, f₂, hf₁, hf₂, hx⟩ :=
    exists_commonFront (fun _ => true) front₁.reverse front₂.reverse
  obtain ⟨y, b₁, b₂, hb₁, hb₂, hy⟩ := exists_commonFront (fun _ => true) back₁ back₂
  have hf₁ := List.reverse_eq_iff.mp hf₁
  have hf₂ := List.reverse_eq_iff.mp hf₂
  refine ⟨f₁.reverse, b₁, f₂.reverse, b₂, x.reverse ++ common ++ y, ?_, ?_, ?_⟩
  · rw [hf₁, hb₁]
    simp
  · rw [hf₂, hb₂]
    simp
  · have htake (u v w : List α) : (u ++ v ++ w).take u.length = u := by simp
    have hdrop (u v w : List α) : (u ++ v ++ w).drop (u.length + v.length) = w := by
      rw [← List.length_append, List.drop_left]
    have h₁ := congrArg List.length hf₁
    have h₂ := congrArg List.length hf₂
    simp only [List.length_reverse, List.length_append] at h₁ h₂
    simp only [Run.extend, htake, hdrop, hx, hy, Run.mk.injEq, List.length_append,
      List.length_reverse]
    omega

/-- **The longest run is a run of both lists.** -/
theorem longestRun_shared (admits : α → Bool) (a b : List α) :
    (longestRun admits a b).Shared a b :=
  (scanOld_shared admits b [] ⟨0, 0, 0⟩ a (Run.shared_empty a b)).extend

/-! ## The two sides of a script -/

omit [DecidableEq α] in
theorem flatMap_old_changeOf (removed added : List α) :
    (changeOf removed added).flatMap Segment.old = removed := by
  unfold changeOf
  split
  · next h =>
    rw [Bool.and_eq_true, List.isEmpty_iff] at h
    rw [h.1, List.flatMap_nil]
  · simp [Segment.old]

omit [DecidableEq α] in
theorem flatMap_new_changeOf (removed added : List α) :
    (changeOf removed added).flatMap Segment.new = added := by
  unfold changeOf
  split
  · next h =>
    rw [Bool.and_eq_true, List.isEmpty_iff, List.isEmpty_iff] at h
    rw [h.2, List.flatMap_nil]
  · simp [Segment.new]

/-- The two sides of a script whose runs are not yet joined. -/
theorem rawScript_sides (admits : α → Bool) (a b : List α) :
    (rawScript admits a b).flatMap Segment.old = a ∧
      (rawScript admits a b).flatMap Segment.new = b := by
  fun_induction rawScript admits a b with
  | case1 a b => exact ⟨flatMap_old_changeOf a b, flatMap_new_changeOf a b⟩
  | case2 a b i j k hr ih₁ ih₂ =>
    obtain ⟨front₁, back₁, front₂, back₂, common, ha, hb, hrun⟩ := longestRun_shared admits a b
    rw [hr] at hrun
    obtain ⟨rfl, rfl, hk⟩ := Run.mk.inj hrun
    rw [Nat.succ_eq_add_one] at hk
    -- the run stands between what is in front of it and what is behind it, on both sides
    have hcommon : (a.drop front₁.length).take (k + 1) = common := by
      rw [ha, hk, List.append_assoc, List.drop_left, List.take_left]
    simp only [List.flatMap_append, List.flatMap_cons, ih₁.1, ih₂.1, ih₁.2, ih₂.2, hcommon,
      Segment.old, Segment.new]
    constructor
    · rw [ha, hk, ← List.length_append, List.drop_left, List.append_assoc, List.take_left]
    · rw [hb, hk, ← List.length_append, List.drop_left, List.append_assoc, List.take_left]

omit [DecidableEq α] in
theorem flatMap_old_consSegment (s : Segment α) (script : List (Segment α)) :
    (consSegment s script).flatMap Segment.old = s.old ++ script.flatMap Segment.old := by
  unfold consSegment
  split
  · simp [Segment.old]
  · rfl

omit [DecidableEq α] in
theorem flatMap_new_consSegment (s : Segment α) (script : List (Segment α)) :
    (consSegment s script).flatMap Segment.new = s.new ++ script.flatMap Segment.new := by
  unfold consSegment
  split
  · simp [Segment.new]
  · rfl

omit [DecidableEq α] in
theorem joined_sides (script : List (Segment α)) :
    (script.foldr consSegment []).flatMap Segment.old = script.flatMap Segment.old ∧
      (script.foldr consSegment []).flatMap Segment.new = script.flatMap Segment.new := by
  induction script with
  | nil => exact ⟨rfl, rfl⟩
  | cons s rest ih =>
    constructor
    · rw [List.foldr_cons, flatMap_old_consSegment, ih.1, List.flatMap_cons]
    · rw [List.foldr_cons, flatMap_new_consSegment, ih.2, List.flatMap_cons]

/-- **A script spells out the list it starts from.** -/
theorem script_old (a b : List α) : (script a b).flatMap Segment.old = a :=
  (joined_sides _).1.trans (rawScript_sides _ a b).1

/-- **A script spells out the list it leads to.** -/
theorem script_new (a b : List α) : (script a b).flatMap Segment.new = b :=
  (joined_sides _).2.trans (rawScript_sides _ a b).2

/-! ## From a list to itself -/

theorem commonFront_comm (admits : α → Bool) (a b : List α) :
    commonFront admits a b = commonFront admits b a := by
  fun_induction commonFront admits a b with
  | case1 x xs y ys h ih =>
    rw [Bool.and_eq_true, decide_eq_true_eq] at h
    obtain ⟨rfl, hx⟩ := h
    simp [commonFront, hx, ih]
  | case2 x xs y ys h =>
    rw [commonFront, if_neg]
    intro hc
    rw [Bool.and_eq_true, decide_eq_true_eq] at hc
    obtain ⟨rfl, hy⟩ := hc
    simp [hy] at h
  | case3 a b h =>
    cases a with
    | nil => cases b <;> rfl
    | cons x xs =>
      cases b with
      | nil => rfl
      | cons y ys => exact absurd rfl (h x xs y ys rfl)

/-- A list has with no other list more in common than with itself. -/
theorem commonFront_le_self (admits : α → Bool) (a b : List α) :
    commonFront admits a b ≤ commonFront admits a a := by
  fun_induction commonFront admits a b with
  | case1 x xs y ys h ih =>
    rw [Bool.and_eq_true] at h
    simp only [commonFront, h.2, decide_true, Bool.and_self, if_true]
    omega
  | case2 => omega
  | case3 => omega

theorem commonFront_self (a : List α) : commonFront (fun _ => true) a a = a.length := by
  induction a with
  | nil => rfl
  | cons x xs ih => simp [commonFront, ih]

/-- A scan keeps its run if nothing longer ends in the part it goes through. -/
theorem scanNew_of_le (admits : α → Bool) (front seen : List α) (best : Run) (b : List α)
    (h : ∀ g, g <:+ b.reverse ++ seen → commonFront admits front g ≤ best.size) :
    scanNew admits front seen best b = best := by
  induction b generalizing seen with
  | nil => rfl
  | cons y ys ih =>
    have hseen : (y :: ys).reverse ++ seen = ys.reverse ++ (y :: seen) := by simp
    rw [hseen] at h
    have hy := h (y :: seen) (List.suffix_append _ _)
    rw [scanNew, if_neg (by omega)]
    exact ih (y :: seen) h

theorem scanNew_append (admits : α → Bool) (front seen : List α) (best : Run) (b c : List α) :
    scanNew admits front seen best (b ++ c)
      = scanNew admits front (b.reverse ++ seen) (scanNew admits front seen best b) c := by
  induction b generalizing seen best with
  | nil => rfl
  | cons y ys ih =>
    rw [List.cons_append, scanNew, scanNew, ih]
    simp

/-- The run that a front of the list has with itself, if it is longer than the best one. -/
def Run.orDiagonal (best : Run) (admits : α → Bool) (front : List α) : Run :=
  let size := commonFront admits front front
  if best.size < size then ⟨front.length - size, front.length - size, size⟩ else best

theorem Run.orDiagonal_size (best : Run) (admits : α → Bool) (front : List α) :
    best.size ≤ (best.orDiagonal admits front).size ∧
      commonFront admits front front ≤ (best.orDiagonal admits front).size := by
  simp only [Run.orDiagonal]
  split
  · next h => exact ⟨Nat.le_of_lt h, Nat.le_refl _⟩
  · next h => exact ⟨Nat.le_refl _, Nat.le_of_not_lt h⟩

theorem Run.orDiagonal_diagonal {best : Run} (admits : α → Bool) (front : List α)
    (h : best.old = best.new) :
    (best.orDiagonal admits front).old = (best.orDiagonal admits front).new := by
  simp only [Run.orDiagonal]
  split
  · rfl
  · exact h

/-- **A scan of the list that the front comes from stays on the diagonal.** The shorter fronts have
been met before, and the longer ones have no more in common with the front than the front itself. -/
theorem scanNew_diagonal (admits : α → Bool) (x : α) (seen xs : List α) (best : Run)
    (h : ∀ g, g <:+ seen → commonFront admits g g ≤ best.size) :
    scanNew admits (x :: seen) [] best (seen.reverse ++ x :: xs)
      = best.orDiagonal admits (x :: seen) := by
  rw [scanNew_append, List.append_nil, List.reverse_reverse]
  have hshort : scanNew admits (x :: seen) [] best seen.reverse = best := by
    refine scanNew_of_le admits _ _ _ _ fun g hg => ?_
    rw [List.reverse_reverse, List.append_nil] at hg
    calc commonFront admits (x :: seen) g = commonFront admits g (x :: seen) :=
          commonFront_comm admits _ _
      _ ≤ commonFront admits g g := commonFront_le_self admits _ _
      _ ≤ best.size := h g hg
  rw [hshort, scanNew]
  -- the front itself is met now, and from here on nothing longer can come
  show scanNew admits (x :: seen) (x :: seen) (best.orDiagonal admits (x :: seen)) xs = _
  refine scanNew_of_le admits _ _ _ _ fun g _ => ?_
  exact Nat.le_trans (commonFront_le_self admits _ _) (Run.orDiagonal_size best admits _).2

theorem scanOld_diagonal (admits : α → Bool) (seen a : List α) (best : Run)
    (hd : best.old = best.new) (h : ∀ g, g <:+ seen → commonFront admits g g ≤ best.size) :
    (scanOld admits (seen.reverse ++ a) seen best a).old
      = (scanOld admits (seen.reverse ++ a) seen best a).new := by
  induction a generalizing seen best with
  | nil => exact hd
  | cons x xs ih =>
    rw [scanOld, scanNew_diagonal admits x seen xs best h]
    have hseen : seen.reverse ++ x :: xs = (x :: seen).reverse ++ xs := by simp
    rw [hseen]
    refine ih _ _ ?_ ?_
    · exact Run.orDiagonal_diagonal admits _ hd
    · intro g hg
      have hsize := Run.orDiagonal_size best admits (x :: seen)
      rcases List.suffix_cons_iff.mp hg with rfl | hg
      · exact hsize.2
      · exact Nat.le_trans (h g hg) hsize.1

/-- The longest run of a list with itself is the whole list. -/
theorem longestRun_self (admits : α → Bool) (a : List α) :
    longestRun admits a a = ⟨0, 0, a.length⟩ := by
  unfold longestRun
  have hd := scanOld_diagonal admits [] a ⟨0, 0, 0⟩ rfl (by
    intro g hg
    rw [List.suffix_nil.mp hg]
    exact Nat.le_refl 0)
  have hw := scanOld_within admits a [] ⟨0, 0, 0⟩ a (by simp [Run.Within])
  simp only [List.reverse_nil, List.nil_append, List.length_nil, Nat.zero_add] at hd hw
  generalize scanOld admits a [] ⟨0, 0, 0⟩ a = r at hd hw
  obtain ⟨old, new, size⟩ := r
  obtain rfl : old = new := hd
  have hle : old + size ≤ a.length := hw.1
  -- on the diagonal both sides of the run are equal lists, so it grows to both ends
  simp only [Run.extend, commonFront_self, List.length_reverse, List.length_take, List.length_drop,
    Run.mk.injEq]
  omega

theorem rawScript_nil (admits : α → Bool) : rawScript admits ([] : List α) [] = [] := by
  rw [rawScript]
  split
  · rfl
  · next hr =>
    rw [longestRun_self] at hr
    cases hr

/-- **A list is reached from itself without a change.** -/
theorem script_self (a : List α) : script a a = if a = [] then [] else [.same a] := by
  show (rawScript _ a a).foldr consSegment [] = _
  cases a with
  | nil => rw [rawScript_nil]; rfl
  | cons x xs =>
    rw [rawScript]
    split
    · next hr =>
      rw [longestRun_self] at hr
      cases hr
    · next hr =>
      rw [longestRun_self] at hr
      obtain ⟨rfl, rfl, hk⟩ := Run.mk.inj hr
      rw [← Nat.succ_eq_add_one, ← hk]
      simp [rawScript_nil, consSegment]

end PatchLint
