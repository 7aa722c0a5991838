import PatchLint.Diff.Create

/-!
# Clusters tile their documents

The clusters of a script are read off two documents at once. `Tiling` says what holds of them: between
two clusters, in front of the first and behind the last both documents have the same entries, each
cluster knows how many entries precede it on either side, and behind a cluster that is not the last
one both documents go on.

* `clusters_tiling` — the clusters of a script tile its two sides
* `clusters_same` — a script without a change has no clusters
-/

namespace PatchLint

open Document (Entry)

/-! ## The two sides of a cluster -/

/-- The old entries of a cluster. -/
def Cluster.old (c : Cluster) : List Entry := c.segments.flatMap Segment.old

/-- The new entries of a cluster. -/
def Cluster.new (c : Cluster) : List Entry := c.segments.flatMap Segment.new

@[simp] theorem Cluster.old_push (c : Cluster) (s : Segment Entry) :
    (c.push s).old = c.old ++ s.old := by
  simp [Cluster.push, Cluster.old]

@[simp] theorem Cluster.new_push (c : Cluster) (s : Segment Entry) :
    (c.push s).new = c.new ++ s.new := by
  simp [Cluster.push, Cluster.new]

@[simp] theorem Cluster.oldBefore_push (c : Cluster) (s : Segment Entry) :
    (c.push s).oldBefore = c.oldBefore := rfl

@[simp] theorem Cluster.newBefore_push (c : Cluster) (s : Segment Entry) :
    (c.push s).newBefore = c.newBefore := rfl

theorem flatMap_old_eq_new {segments : List (Segment Entry)}
    (h : segments.any Segment.isChange = false) :
    segments.flatMap Segment.old = segments.flatMap Segment.new := by
  induction segments with
  | nil => rfl
  | cons s rest ih =>
    rw [List.any_cons, Bool.or_eq_false_iff] at h
    rw [List.flatMap_cons, List.flatMap_cons, ih h.2]
    cases s with
    | same items => rfl
    | change removed added => exact absurd h.1 (by simp [Segment.isChange])

/-! ## Tilings -/

/-- Clusters that tile two lists of entries, of which the first `oldAt` and `newAt` have been passed. -/
inductive Tiling : Nat → Nat → List Entry → List Entry → List Cluster → Prop where
  | nil (oldAt newAt : Nat) (es : List Entry) : Tiling oldAt newAt es es []
  | cons {oldAt newAt : Nat} (gap : List Entry) {c : Cluster} {a b : List Entry} {cs : List Cluster}
      (oldBefore : c.oldBefore = oldAt + gap.length)
      (newBefore : c.newBefore = newAt + gap.length)
      (goesOn : cs ≠ [] → a ≠ [] ∧ b ≠ [])
      (rest : Tiling (c.oldBefore + c.old.length) (c.newBefore + c.new.length) a b cs) :
      Tiling oldAt newAt (gap ++ c.old ++ a) (gap ++ c.new ++ b) (c :: cs)

/-- Common entries behind everything belong to no cluster. -/
theorem Tiling.append_right {oldAt newAt : Nat} {a b : List Entry} {cs : List Cluster}
    (h : Tiling oldAt newAt a b cs) (tail : List Entry) :
    Tiling oldAt newAt (a ++ tail) (b ++ tail) cs := by
  induction h with
  | nil oldAt newAt es => exact .nil oldAt newAt (es ++ tail)
  | cons gap ho hn hgo hrest ih =>
    rw [List.append_assoc _ _ tail, List.append_assoc _ _ tail]
    refine .cons gap ho hn (fun hcs => ?_) ih
    exact ⟨List.append_ne_nil_of_left_ne_nil (hgo hcs).1 tail,
      List.append_ne_nil_of_left_ne_nil (hgo hcs).2 tail⟩

/-! ## Cutting a script -/

/-- A long common segment is its first lines, some lines that no cluster shows, and its last lines. -/
theorem exists_middle {context : Nat} {items : List Entry} (h : 2 * context < items.length) :
    ∃ middle, items = items.take context ++ (middle ++ items.drop (items.length - context)) ∧
      middle ≠ [] := by
  refine ⟨(items.drop context).take (items.length - 2 * context), ?_, ?_⟩
  · have hdrop : items.drop (items.length - context)
        = (items.drop context).drop (items.length - 2 * context) := by
      rw [List.drop_drop]
      congr 1
      omega
    rw [hdrop, List.take_append_drop, List.take_append_drop]
  · intro hnil
    have hlen := congrArg List.length hnil
    simp only [List.length_take, List.length_drop, List.length_nil] at hlen
    omega

/-- A cluster is closed by the first lines of a common segment; the rest of the segment is left to
the clusters behind it. -/
theorem Tiling.close {current : Cluster} {gap shown left a b : List Entry} {cs : List Cluster}
    {oldAt newAt : Nat} (ho : current.oldBefore = oldAt + gap.length)
    (hn : current.newBefore = newAt + gap.length) (hleft : left ≠ [])
    (h : Tiling (current.oldBefore + current.old.length + shown.length)
      (current.newBefore + current.new.length + shown.length) (left ++ a) (left ++ b) cs) :
    Tiling oldAt newAt (gap ++ current.old ++ (shown ++ left ++ a))
      (gap ++ current.new ++ (shown ++ left ++ b)) (current.push (.same shown) :: cs) := by
  have hcons := Tiling.cons gap (c := current.push (.same shown)) ho hn
    (fun _ => ⟨List.append_ne_nil_of_left_ne_nil hleft a,
      List.append_ne_nil_of_left_ne_nil hleft b⟩)
    (by
      rw [Cluster.old_push, Cluster.new_push, List.length_append, List.length_append,
        ← Nat.add_assoc, ← Nat.add_assoc]
      exact h)
  simpa [Segment.old, Segment.new] using hcons

/-- The cluster that is opened by the last lines of a common segment. -/
theorem Cluster.sides_same (oldBefore newBefore : Nat) (items : List Entry) :
    (⟨oldBefore, newBefore, [.same items]⟩ : Cluster).old = items ∧
      (⟨oldBefore, newBefore, [.same items]⟩ : Cluster).new = items := by
  simp [Cluster.old, Cluster.new, Segment.old, Segment.new]

/-- **Clusters tile what is left of a script.** The open cluster stands behind `gap`; what it has
taken in so far ends where the script goes on. -/
theorem clustersFrom_tiling (context : Nat) (script : List (Segment Entry)) :
    ∀ (current : Cluster) (gap : List Entry) (oldAt newAt oldNow newNow : Nat),
    current.oldBefore = oldAt + gap.length → current.newBefore = newAt + gap.length →
    oldNow = current.oldBefore + current.old.length →
    newNow = current.newBefore + current.new.length →
    Tiling oldAt newAt (gap ++ current.old ++ script.flatMap Segment.old)
      (gap ++ current.new ++ script.flatMap Segment.new)
      (clustersFrom context oldNow newNow current script) := by
  induction script with
  | nil =>
    intro current gap oldAt newAt oldNow newNow ho hn _ _
    rw [clustersFrom, List.flatMap_nil, List.flatMap_nil]
    split
    · exact .cons gap ho hn (fun h => absurd rfl h) (.nil _ _ [])
    · next h =>
      rw [Bool.not_eq_true] at h
      rw [Cluster.old, Cluster.new, flatMap_old_eq_new h]
      exact .nil _ _ _
  | cons s rest ih =>
    intro current gap oldAt newAt oldNow newNow ho hn hold hnew
    have hpush : Tiling oldAt newAt (gap ++ current.old ++ (s :: rest).flatMap Segment.old)
        (gap ++ current.new ++ (s :: rest).flatMap Segment.new)
        (clustersFrom context (oldNow + s.old.length) (newNow + s.new.length) (current.push s)
          rest) := by
      have h := ih (current.push s) gap oldAt newAt (oldNow + s.old.length)
        (newNow + s.new.length) ho hn
        (by rw [hold, Cluster.old_push, Cluster.oldBefore_push, List.length_append]; omega)
        (by rw [hnew, Cluster.new_push, Cluster.newBefore_push, List.length_append]; omega)
      simpa using h
    cases s with
    | change removed added => exact hpush
    | same items =>
      rw [clustersFrom]
      simp only []
      split
      · next hlong =>
        obtain ⟨middle, hitems, hmiddle⟩ := exists_middle hlong
        rw [List.flatMap_cons, List.flatMap_cons]
        simp only [Segment.old, Segment.new]
        generalize items.take context = shown at hitems ⊢
        generalize items.drop (items.length - context) = tail at hitems ⊢
        subst hitems
        refine Tiling.close ho hn (List.append_ne_nil_of_left_ne_nil hmiddle tail) ?_
        have hnow (now : Nat) : now + (shown ++ (middle ++ tail)).length
            = now + shown.length + middle.length + tail.length := by
          simp only [List.length_append]
          omega
        rw [← hold, ← hnew, hnow oldNow, hnow newNow, Nat.add_sub_cancel, Nat.add_sub_cancel]
        -- the lines that no cluster shows are the gap in front of the next one
        have hsides := Cluster.sides_same (oldNow + shown.length + middle.length)
          (newNow + shown.length + middle.length) tail
        have h := ih ⟨_, _, [.same tail]⟩ middle (oldNow + shown.length) (newNow + shown.length)
          (oldNow + shown.length + middle.length + tail.length)
          (newNow + shown.length + middle.length + tail.length) rfl rfl
          (by rw [hsides.1]) (by rw [hsides.2])
        rwa [hsides.1, hsides.2] at h
      · exact hpush

/-- Shortening the last segment leaves common entries out. -/
theorem exists_trimmed (context : Nat) (script : List (Segment Entry)) :
    ∃ tail, script.flatMap Segment.old = (trimLast context script).flatMap Segment.old ++ tail ∧
      script.flatMap Segment.new = (trimLast context script).flatMap Segment.new ++ tail := by
  fun_induction trimLast context script with
  | case1 => exact ⟨[], rfl, rfl⟩
  | case2 items => exact ⟨items.drop context, by simp [Segment.old], by simp [Segment.new]⟩
  | case3 s rest _ ih =>
    obtain ⟨tail, hold, hnew⟩ := ih
    exact ⟨tail, by simp [hold], by simp [hnew]⟩

/-- **The clusters of a script tile its two sides.** -/
theorem clusters_tiling (context : Nat) (script : List (Segment Entry)) :
    Tiling 0 0 (script.flatMap Segment.old) (script.flatMap Segment.new)
      (clusters context script) := by
  unfold clusters
  split
  · next items rest =>
    obtain ⟨tail, hold, hnew⟩ :=
      exists_trimmed context (.same (items.drop (items.length - context)) :: rest)
    have hskip : (items.take (items.length - context)).length = items.length - context := by
      rw [List.length_take]
      omega
    have h := clustersFrom_tiling context
      (trimLast context (.same (items.drop (items.length - context)) :: rest))
      ⟨items.length - context, items.length - context, []⟩ (items.take (items.length - context))
      0 0 (items.length - context) (items.length - context)
      (by rw [hskip, Nat.zero_add]) (by rw [hskip, Nat.zero_add]) rfl rfl
    have h := h.append_right tail
    simp only [Cluster.old, Cluster.new, List.flatMap_nil, List.append_nil] at h
    rw [List.append_assoc, List.append_assoc, ← hold, ← hnew] at h
    simpa [Segment.old, Segment.new, ← List.append_assoc] using h
  · obtain ⟨tail, hold, hnew⟩ := exists_trimmed context script
    have h := clustersFrom_tiling context (trimLast context script) ⟨0, 0, []⟩ [] 0 0 0 0
      rfl rfl rfl rfl
    have h := h.append_right tail
    simp only [Cluster.old, Cluster.new, List.flatMap_nil, List.append_nil, List.nil_append] at h
    rwa [← hold, ← hnew] at h

/-- A script that keeps everything has no clusters. -/
theorem clusters_same (context : Nat) (items : List Entry) :
    clusters context [.same items] = [] := by
  have hshort : ¬2 * context < ((items.drop (items.length - context)).take context).length := by
    simp only [List.length_take, List.length_drop]
    omega
  simp only [clusters, trimLast, clustersFrom, if_neg hshort]
  rfl

/-- Documents that differ have clusters. -/
theorem Tiling.ne_nil {oldAt newAt : Nat} {a b : List Entry} {cs : List Cluster}
    (h : Tiling oldAt newAt a b cs) (hab : a ≠ b) : cs ≠ [] := by
  cases h with
  | nil => exact absurd rfl hab
  | cons => exact List.cons_ne_nil _ _

end PatchLint
