import Mathlib.Data.List.DropRight
import PatchLint.Diff.TextEdit

/-!
# The changed lines of a hunk

The body of a hunk is cut into the lines in front of its first change, the lines from there to its last
change, and the lines behind that. The two sides of the hunk are told line by line (`oldSide`, `newSide`),
so each part has an old and a new side of its own.

* `sides_of_sidesFrom` — the sides that applying a hunk uses are the sides of its body
* `Hunk.edit?_eq` — the edit of a hunk replaces the old side of its changed lines by their new side

The reader of edits goes through the body only once and does not know which change is the last one, so it
is followed by induction from the end of the body (`EditReader.foldl_step_eq`): a change takes in the
context it had kept in mind.
-/

namespace PatchLint

/-! ## The sides of a body -/

/-- The lines that body lines put on the old side. -/
def oldSide (ls : List Text) : List Text := (ls.filter fun l => (Tag.of l).inOld).map (·.drop 1)

/-- The lines that body lines put on the new side. -/
def newSide (ls : List Text) : List Text := (ls.filter fun l => (Tag.of l).inNew).map (·.drop 1)

@[simp] theorem oldSide_nil : oldSide [] = [] := rfl

@[simp] theorem newSide_nil : newSide [] = [] := rfl

@[simp] theorem oldSide_append (ls ms : List Text) : oldSide (ls ++ ms) = oldSide ls ++ oldSide ms := by
  simp [oldSide]

@[simp] theorem newSide_append (ls ms : List Text) : newSide (ls ++ ms) = newSide ls ++ newSide ms := by
  simp [newSide]

theorem oldSide_singleton (l : Text) :
    oldSide [l] = if (Tag.of l).inOld then [l.drop 1] else [] := by
  cases h : (Tag.of l).inOld <;> simp [oldSide, h]

theorem newSide_singleton (l : Text) :
    newSide [l] = if (Tag.of l).inNew then [l.drop 1] else [] := by
  cases h : (Tag.of l).inNew <;> simp [newSide, h]

theorem Sides.old_push (s : Sides) (l : Text) :
    (s.push (Tag.of l) l).old = s.old ++ oldSide [l] := by
  rw [oldSide_singleton, push]
  dsimp only
  split
  · rfl
  · exact (List.append_nil _).symm

theorem Sides.new_push (s : Sides) (l : Text) :
    (s.push (Tag.of l) l).new = s.new ++ newSide [l] := by
  rw [newSide_singleton, push]
  dsimp only
  split
  · rfl
  · exact (List.append_nil _).symm

/-- A marker is on neither side. -/
theorem sides_marker {l : Text} (h : Tag.of l = .marker) : oldSide [l] = [] ∧ newSide [l] = [] := by
  simp [oldSide_singleton, newSide_singleton, h, Tag.inOld, Tag.inNew]

/-- **The sides of a hunk are the sides of its body.** All body lines have known roles, and there is
context if one of them stays. -/
theorem sides_of_sidesFrom {sides : Sides} (ls : List Text) :
    ∀ {s : Sides} {previous : Option Tag}, sidesFrom s previous ls = some sides →
    sides.old = s.old ++ oldSide ls ∧ sides.new = s.new ++ newSide ls ∧
      (∀ l ∈ ls, Tag.of l ≠ .unknown) ∧
      (sides.hasContext = true ↔ s.hasContext = true ∨ ∃ l ∈ ls, Tag.of l = .context) := by
  induction ls with
  | nil =>
    intro s previous h
    cases h
    simp
  | cons l ls ih =>
    intro s previous h
    rw [sidesFrom] at h
    rw [← List.singleton_append, oldSide_append, newSide_append, ← List.append_assoc,
      ← List.append_assoc]
    simp only [List.singleton_append, List.forall_mem_cons, List.exists_mem_cons_iff]
    split at h
    · next hmarker =>
      obtain ⟨hold, hnew, hknown, hcontext⟩ := ih h
      rw [(sides_marker hmarker).1, (sides_marker hmarker).2, List.append_nil, List.append_nil]
      exact ⟨hold, hnew, ⟨by simp [hmarker], hknown⟩, by simpa [hmarker, Sides.mark] using hcontext⟩
    · cases h
    · next hmarker hunknown =>
      obtain ⟨hold, hnew, hknown, hcontext⟩ := ih h
      rw [Sides.old_push] at hold
      rw [Sides.new_push] at hnew
      exact ⟨hold, hnew, ⟨hunknown, hknown⟩, by simpa [Sides.push, or_assoc] using hcontext⟩

/-! ## The parts of a body -/

/-- Whether a body line changes something. -/
def isChange (l : Text) : Bool := Tag.of l = .removed || Tag.of l = .added

/-- The body lines in front of the first change. -/
def linesBeforeChanges (ls : List Text) : List Text := ls.takeWhile (!isChange ·)

/-- The body lines from the first change to the last one. -/
def changedLines (ls : List Text) : List Text :=
  (ls.dropWhile (!isChange ·)).rdropWhile (!isChange ·)

/-- The body lines behind the last change, unless there is none. -/
def linesAfterChanges (ls : List Text) : List Text :=
  (ls.dropWhile (!isChange ·)).rtakeWhile (!isChange ·)

theorem parts_append (ls : List Text) :
    linesBeforeChanges ls ++ (changedLines ls ++ linesAfterChanges ls) = ls := by
  rw [changedLines, linesAfterChanges, List.rdropWhile_append_rtakeWhile, linesBeforeChanges,
    List.takeWhile_append_dropWhile]

variable {l : Text} {ls : List Text}

/-- There are no changed lines if no line is a change. -/
theorem changedLines_eq_nil_iff : changedLines ls = [] ↔ ∀ l ∈ ls, isChange l = false := by
  rw [changedLines, List.rdropWhile_eq_nil_iff]
  constructor
  · intro h
    have hnil : ls.dropWhile (!isChange ·) = [] := by
      by_contra hne
      have hhead := List.head_dropWhile_not (!isChange ·) hne
      rw [h _ (List.head_mem hne)] at hhead
      cases hhead
    simpa [List.dropWhile_eq_nil_iff] using hnil
  · intro h l hl
    simpa using h l ((List.dropWhile_sublist _).subset hl)

/-- A body without changes is all in front of them. -/
theorem parts_of_forall (h : ∀ l ∈ ls, isChange l = false) :
    linesBeforeChanges ls = ls ∧ changedLines ls = [] ∧ linesAfterChanges ls = [] := by
  have hnil : ls.dropWhile (!isChange ·) = [] := List.dropWhile_eq_nil_iff.mpr (by simpa using h)
  refine ⟨List.takeWhile_eq_self_iff.mpr (by simpa using h), changedLines_eq_nil_iff.mpr h, ?_⟩
  rw [linesAfterChanges, hnil, List.rtakeWhile_nil]

/-- A change at the end takes in the lines behind the last change so far. -/
theorem parts_concat_change (h : isChange l = true) :
    linesBeforeChanges (ls ++ [l]) = linesBeforeChanges ls ∧
      changedLines (ls ++ [l]) = changedLines ls ++ linesAfterChanges ls ++ [l] ∧
      linesAfterChanges (ls ++ [l]) = [] := by
  have hdrop : (ls ++ [l]).dropWhile (!isChange ·) = ls.dropWhile (!isChange ·) ++ [l] := by
    rw [List.dropWhile_append, List.dropWhile_cons_of_neg (by simp [h])]
    split
    · next hnil => rw [List.isEmpty_iff.mp hnil, List.nil_append]
    · rfl
  refine ⟨?_, ?_, ?_⟩
  · rw [linesBeforeChanges, List.takeWhile_append, List.takeWhile_cons_of_neg (by simp [h]),
      List.append_nil]
    split
    · next hall => exact ((List.takeWhile_prefix _).eq_of_length hall).symm
    · rfl
  · rw [changedLines, hdrop, List.rdropWhile_concat_neg _ _ _ (by simp [h]), changedLines,
      linesAfterChanges, List.rdropWhile_append_rtakeWhile]
  · rw [linesAfterChanges, hdrop, List.rtakeWhile_concat_neg _ _ _ (by simp [h])]

/-- A line that is no change stands behind the changes, if there are any. -/
theorem parts_concat_of_ne_nil (hl : isChange l = false) (h : changedLines ls ≠ []) :
    linesBeforeChanges (ls ++ [l]) = linesBeforeChanges ls ∧
      changedLines (ls ++ [l]) = changedLines ls ∧
      linesAfterChanges (ls ++ [l]) = linesAfterChanges ls ++ [l] := by
  have hrest : ls.dropWhile (!isChange ·) ≠ [] := by
    intro hnil
    rw [changedLines, hnil, List.rdropWhile_nil] at h
    exact h rfl
  have hdrop : (ls ++ [l]).dropWhile (!isChange ·) = ls.dropWhile (!isChange ·) ++ [l] := by
    rw [List.dropWhile_append, if_neg (by simpa using hrest)]
  refine ⟨?_, ?_, ?_⟩
  · have hlength : ((ls.takeWhile (!isChange ·)).length = ls.length) → False := by
      intro hlength
      have hall := List.takeWhile_eq_self_iff.mp ((List.takeWhile_prefix _).eq_of_length hlength)
      exact hrest (List.dropWhile_eq_nil_iff.mpr hall)
    rw [linesBeforeChanges, List.takeWhile_append, if_neg hlength, linesBeforeChanges]
  · rw [changedLines, hdrop, List.rdropWhile_concat_pos _ _ _ (by simp [hl]), changedLines]
  · rw [linesAfterChanges, hdrop, List.rtakeWhile_concat_pos _ _ _ (by simp [hl]), linesAfterChanges]

/-- Lines that are no changes stand on both sides. -/
theorem newSide_eq_oldSide (h : ∀ l ∈ ls, isChange l = false) : newSide ls = oldSide ls := by
  have hboth : ∀ l ∈ ls, (Tag.of l).inNew = (Tag.of l).inOld := by
    intro l hl
    have hl := h l hl
    rw [isChange] at hl
    cases htag : Tag.of l <;> simp [htag, Tag.inOld, Tag.inNew] at hl ⊢
  rw [newSide, oldSide, List.filter_congr hboth]

theorem newSide_linesBeforeChanges (ls : List Text) :
    newSide (linesBeforeChanges ls) = oldSide (linesBeforeChanges ls) :=
  newSide_eq_oldSide fun _ hl => by simpa using List.mem_takeWhile_imp hl

theorem newSide_linesAfterChanges (ls : List Text) :
    newSide (linesAfterChanges ls) = oldSide (linesAfterChanges ls) :=
  newSide_eq_oldSide fun _ hl => by simpa using List.mem_rtakeWhile_imp hl

/-! ## Reading a body -/

/-- The edit that puts lines in the place of others, unless it changes nothing. -/
def editAt? (start : Int) (removed added : List Text) : Option TextEdit :=
  if removed.isEmpty && added.isEmpty then none
  else some ⟨start, start + removed.length, Text.joinWith ['\n'] added⟩

namespace EditReader

/-- What has been read of a hunk that starts at the line `first`, behind some of its body lines. -/
def behind (first : Int) (ls : List Text) : EditReader where
  cursor := first + (oldSide ls).length
  range :=
    if changedLines ls = [] then none
    else some (first + (oldSide (linesBeforeChanges ls)).length,
      first + (oldSide (linesBeforeChanges ls)).length + (oldSide (changedLines ls)).length)
  replacement := newSide (changedLines ls)
  pending := newSide (linesAfterChanges ls)

variable (first : Int)

/-- A change takes in the lines behind the last change so far. -/
theorem change_behind (h : isChange l = true) :
    (behind first ls).change (first + (oldSide (ls ++ [l])).length) (newSide [l])
      = behind first (ls ++ [l]) := by
  obtain ⟨hbefore, hchanged, hafter⟩ := @parts_concat_change l ls h
  have hne : changedLines (ls ++ [l]) ≠ [] := by
    rw [hchanged]
    exact List.append_ne_nil_of_right_ne_nil _ (List.cons_ne_nil l [])
  have hparts := congrArg (fun ms => (oldSide ms).length) (parts_append (ls ++ [l]))
  simp only [oldSide_append, List.length_append, hbefore, hafter, oldSide_nil, List.length_nil]
    at hparts
  simp only [change, behind, if_neg hne, hbefore, hafter, newSide_nil, EditReader.mk.injEq, true_and,
    and_true, oldSide_append, List.length_append]
  refine ⟨?_, ?_⟩
  · by_cases hnil : changedLines ls = []
    · -- the first change: all lines so far stand in front of it
      obtain ⟨hall, -, -⟩ := parts_of_forall (changedLines_eq_nil_iff.mp hnil)
      rw [if_pos hnil, hall]
      rw [hall] at hparts
      simp only [Option.some.injEq, Prod.mk.injEq, true_and]
      omega
    · rw [if_neg hnil]
      simp only [Option.some.injEq, Prod.mk.injEq, true_and]
      omega
  · rw [hchanged, newSide_append, newSide_append]

/-- A line that is no change is kept in mind if there was a change before. -/
theorem pass_behind (h : isChange l = false) :
    { behind first ls with
        cursor := (behind first ls).cursor + (oldSide [l]).length
        pending := if (behind first ls).range.isSome then (behind first ls).pending ++ newSide [l]
          else (behind first ls).pending }
      = behind first (ls ++ [l]) := by
  by_cases hnil : changedLines ls = []
  · have hnone := changedLines_eq_nil_iff.mp hnil
    obtain ⟨-, -, hafter⟩ := parts_of_forall hnone
    obtain ⟨-, hnil', hafter'⟩ := parts_of_forall
      (List.forall_mem_append.mpr ⟨hnone, List.forall_mem_singleton.mpr h⟩)
    simp [behind, hnil, hnil', hafter, hafter', Int.add_assoc]
  · obtain ⟨hbefore, hchanged, hafter⟩ := parts_concat_of_ne_nil h hnil
    simp [behind, hnil, hbefore, hchanged, hafter, Int.add_assoc]

/-- **One body line.** -/
theorem step_behind (hknown : Tag.of l ≠ .unknown) :
    (behind first ls).step l = behind first (ls ++ [l]) := by
  cases htag : Tag.of l with
  | removed =>
    rw [← change_behind first (by simp [isChange, htag])]
    simp [step, htag, oldSide_singleton, newSide_singleton, Tag.inOld, Tag.inNew, behind,
      Int.add_assoc]
  | added =>
    rw [← change_behind first (by simp [isChange, htag])]
    simp [step, htag, oldSide_singleton, newSide_singleton, Tag.inOld, Tag.inNew, behind]
  | context =>
    rw [← pass_behind first (by simp [isChange, htag])]
    simp [step, htag, oldSide_singleton, newSide_singleton, Tag.inOld, Tag.inNew]
  | marker =>
    rw [← pass_behind first (by simp [isChange, htag])]
    simp [step, htag, oldSide_singleton, newSide_singleton, Tag.inOld, Tag.inNew]
  | unknown => exact absurd htag hknown

/-- **The lines of a body.** -/
theorem foldl_step_eq (ls : List Text) (hknown : ∀ l ∈ ls, Tag.of l ≠ .unknown) :
    ls.foldl step { cursor := first } = behind first ls := by
  induction ls using List.reverseRecOn with
  | nil => simp [behind, changedLines, linesAfterChanges]
  | append_singleton ls l ih =>
    rw [List.foldl_append, ih fun m hm => hknown m (List.mem_append_left _ hm), List.foldl_cons,
      List.foldl_nil, step_behind first (hknown l (by simp))]

end EditReader

/-- **The edit of a hunk** replaces the old side of its changed lines by their new side. -/
theorem Hunk.edit?_eq {h : Hunk} (hknown : ∀ l ∈ h.body, Tag.of l ≠ .unknown) :
    h.edit? = editAt? (h.firstLine + (oldSide (linesBeforeChanges h.body)).length)
      (oldSide (changedLines h.body)) (newSide (changedLines h.body)) := by
  rw [Hunk.edit?, EditReader.foldl_step_eq _ _ hknown]
  by_cases hnil : changedLines h.body = []
  · simp [EditReader.edit?, EditReader.behind, editAt?, hnil]
  · simp only [EditReader.edit?, EditReader.behind, editAt?, if_neg hnil]
    generalize h.firstLine + (oldSide (linesBeforeChanges h.body)).length = start
    have hrange : (start == start + (oldSide (changedLines h.body)).length)
        = (oldSide (changedLines h.body)).isEmpty := by
      rw [Bool.eq_iff_iff, beq_iff_eq, List.isEmpty_iff_length_eq_zero]
      omega
    rw [hrange, Bool.and_comm]

end PatchLint
