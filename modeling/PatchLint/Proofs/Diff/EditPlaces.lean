import PatchLint.Proofs.Diff.ChangedLines
import PatchLint.Proofs.Diff.HunkPlaces

/-!
# Where edits point

The edits of a diff are read off the headers of its hunks, while applying the diff looks for the place of
each hunk in the text. So an edit points at the lines that its hunk replaces only if the hunk was found where
its header says; otherwise it is as far from them as the hunk was moved (`edits_moved_pointAt`).

A hunk that was moved is enough for an edit that points at other lines (`not_edits_pointAt`).
-/

namespace PatchLint

namespace TextEdit

/-- The edit, moved by some lines. -/
def moved (e : TextEdit) (distance : Int) : TextEdit :=
  { e with startLine := e.startLine + distance, endLine := e.endLine + distance }

/-- Whether the range of an edit lies within some lines and holds the given ones. -/
structure PointsAt (e : TextEdit) (lines old : List Text) : Prop where
  start_nonneg : 0 ≤ e.startLine
  start_le_end : e.startLine ≤ e.endLine
  end_le_length : e.endLine ≤ lines.length
  lines_eq : (lines.drop e.startLine.toNat).take (e.endLine - e.startLine).toNat = old

end TextEdit

/-- An edit whose range starts behind some lines points at the lines there. -/
theorem pointsAt_of_cut {e : TextEdit} (front old back : List Text)
    (hstart : e.startLine = front.length) (hend : e.endLine = front.length + old.length) :
    e.PointsAt (front ++ old ++ back) old where
  start_nonneg := by omega
  start_le_end := by omega
  end_le_length := by
    simp only [List.length_append]
    omega
  lines_eq := by
    have hcount : (e.endLine - e.startLine).toNat = old.length := by omega
    have hfront : e.startLine.toNat = front.length := by omega
    rw [hcount, hfront, List.append_assoc, List.drop_left, List.take_left]

/-- **The edit of a hunk that stands at a place.** Moved as far as the hunk, it points at the old side of
the changed lines. -/
theorem HunkPlace.StandsIn.edit_pointsAt {x : HunkPlace} {lines : List Text} (h : x.StandsIn lines)
    {e : TextEdit} (he : x.hunk.edit? = some e) :
    (e.moved (x.line - x.hunk.firstLine)).PointsAt lines (oldSide (changedLines x.hunk.body)) ∧
      e.newText = Text.joinWith ['\n'] (newSide (changedLines x.hunk.body)) := by
  obtain ⟨front, back, hcut, hline⟩ := h.cut
  obtain ⟨hold, -, hknown, -⟩ := sides_of_sidesFrom x.hunk.body h.sides
  rw [x.hunk.edit?_eq hknown, editAt?] at he
  split at he
  · cases he
  cases he
  refine ⟨?_, rfl⟩
  have hparts : x.sides.old = oldSide (linesBeforeChanges x.hunk.body)
      ++ (oldSide (changedLines x.hunk.body) ++ oldSide (linesAfterChanges x.hunk.body)) := by
    rw [hold, ← oldSide_append, ← oldSide_append, parts_append]
    rfl
  have hlines : lines = front ++ oldSide (linesBeforeChanges x.hunk.body)
      ++ oldSide (changedLines x.hunk.body)
      ++ (oldSide (linesAfterChanges x.hunk.body) ++ back) := by
    rw [hcut, hparts]
    simp only [List.append_assoc]
  rw [hlines]
  refine pointsAt_of_cut _ _ _ ?_ ?_
  · simp only [TextEdit.moved, List.length_append]
    omega
  · simp only [TextEdit.moved, List.length_append]
    omega

/-- **The edits of a diff that applies, moved as far as their hunks, point at the lines they change.** The
range of each of them then lies within the text and holds the old lines of its hunk from the first to the
last change. -/
theorem edits_moved_pointAt {before diff after : Text} (h : applyDiff? before diff = some after) :
    ∃ patch places, Patch.read? diff = some patch ∧ diffPlaces? before diff = some places ∧
      places.map HunkPlace.hunk = patch.hunks ∧
      diffEdits? diff = some (places.filterMap fun x => x.hunk.edit?) ∧
      ∀ x ∈ places, ∀ e, x.hunk.edit? = some e →
        (e.moved (x.line - x.hunk.firstLine)).PointsAt (Document.ofText before).lines
          (oldSide (changedLines x.hunk.body)) ∧
        e.newText = Text.joinWith ['\n'] (newSide (changedLines x.hunk.body)) := by
  obtain ⟨patch, places, hread, hplaces, hhunks, hstand, -⟩ := exists_diffPlaces? h
  refine ⟨patch, places, hread, hplaces, hhunks, ?_, fun x hx e he => (hstand x hx).edit_pointsAt he⟩
  rw [diffEdits?, hread, Option.map_some, Patch.edits, ← hhunks, List.filterMap_map]
  rfl

/-- Two hunks that are both found one line further down than their headers say. -/
theorem edits_moved_pointAt_shifted :
    let before := "x\na\nb\nc\nd\n".toList
    let diff := "@@ -1,2 +1,2 @@\n a\n-b\n+e\n@@ -4 +4 @@\n-d\n+f\n".toList
    applyDiff? before diff = some "x\na\ne\nc\nf\n".toList ∧
      ∃ places, diffPlaces? before diff = some places ∧
        (diffPlaces? before diff).map (·.map HunkPlace.line) = some [1, 4] ∧
        diffEdits? diff = some [⟨1, 2, ['e']⟩, ⟨3, 4, ['f']⟩] ∧
        ∀ x ∈ places, ∀ e, x.hunk.edit? = some e →
          (e.moved (x.line - x.hunk.firstLine)).PointsAt (Document.ofText before).lines
            (oldSide (changedLines x.hunk.body)) := by
  intro before diff
  have h : applyDiff? before diff = some "x\na\ne\nc\nf\n".toList := by decide +kernel
  have hplaces : (diffPlaces? before diff).map (·.map HunkPlace.line) = some [1, 4] := by
    decide +kernel
  have hedits : diffEdits? diff = some [⟨1, 2, ['e']⟩, ⟨3, 4, ['f']⟩] := by decide +kernel
  obtain ⟨-, places, -, hsome, -, -, hpoint⟩ := edits_moved_pointAt h
  exact ⟨h, places, hsome, hplaces, hedits, fun x hx e he => (hpoint x hx e he).1⟩

/-- **An edit need not point at the lines that its hunk replaces.** The hunk below is found one line further
down than its header says, where it replaces the line `b`; its edit points at the line `a`. -/
theorem not_edits_pointAt :
    ¬∀ (before diff after : Text) (patch : Patch), applyDiff? before diff = some after →
      Patch.read? diff = some patch → ∀ h ∈ patch.hunks, ∀ e, h.edit? = some e →
        e.PointsAt (Document.ofText before).lines (oldSide (changedLines h.body)) := by
  intro hall
  have hpoint := hall "x\na\nb\n".toList "@@ -1,2 +1,2 @@\n a\n-b\n+c\n".toList
    "x\na\nc\n".toList ⟨[], [], [⟨1, 2, 1, 2, [" a", "-b", "+c"].map String.toList⟩]⟩
    (by decide +kernel) (by decide +kernel) _ List.mem_cons_self ⟨1, 2, ['c']⟩ (by decide +kernel)
  exact absurd hpoint.lines_eq (by decide +kernel)

end PatchLint
