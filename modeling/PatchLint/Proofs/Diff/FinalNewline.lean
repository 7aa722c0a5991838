import PatchLint.Proofs.Diff.ChangedLines
import PatchLint.Proofs.Diff.Document
import PatchLint.Proofs.Diff.HunkPlaces

/-!
# The final newline of a patched text

A patch may end before the last line of a text. Without markers it then leaves the end of the text alone.
But a marker tells about the end of the whole text wherever it stands in the patch, and the last hunk that
holds one decides: so a patch that keeps the last line can still take its newline away
(`not_newline_of_kept_end`).

* `newline_iff_of_kept_end` — whether the text ends with a newline behind such a patch
-/

namespace PatchLint

/-! ## Open sides -/

/-- Body lines that open the new side have put a line on it. -/
theorem new_ne_nil_of_sidesFrom {sides : Sides} (ls : List Text) :
    ∀ {s : Sides} {previous : Option Tag}, sidesFrom s previous ls = some sides →
    ((previous.map Tag.inNew).getD false = true → s.new ≠ []) → (s.newOpen = true → s.new ≠ []) →
    sides.newOpen = true → sides.new ≠ [] := by
  induction ls with
  | nil =>
    intro s previous h _ hopen
    cases h
    exact hopen
  | cons l ls ih =>
    intro s previous h hprevious hopen
    rw [sidesFrom] at h
    split at h
    · refine ih h hprevious fun hmark => ?_
      rcases (Bool.or_eq_true _ _).mp hmark with hmark | hmark
      · exact hopen hmark
      · exact hprevious hmark
    · cases h
    · refine ih h (fun hnew => ?_) (fun hmark => ?_)
      · have hnew : (Tag.of l).inNew = true := hnew
        rw [Sides.new_push, newSide_singleton, if_pos hnew]
        exact List.append_ne_nil_of_right_ne_nil _ (List.cons_ne_nil _ _)
      · rw [Sides.new_push]
        exact List.append_ne_nil_of_left_ne_nil (hopen hmark) _

/-- A hunk that opens the new side has new lines. -/
theorem Hunk.new_ne_nil {h : Hunk} {sides : Sides} (hsides : h.sides? = some sides)
    (hopen : sides.newOpen = true) : sides.new ≠ [] :=
  new_ne_nil_of_sidesFrom h.body hsides (fun h => absurd h Bool.false_ne_true)
    (fun h => absurd h Bool.false_ne_true) hopen

/-! ## The hunk that decides -/

/-- The last hunk with a marker behind one of its lines. -/
def lastMarked? (places : List HunkPlace) : Option HunkPlace :=
  places.reverse.find? fun x => x.sides.oldOpen || x.sides.newOpen

theorem endedAfterAll_eq (before : Bool) (places : List HunkPlace) :
    endedAfterAll before (places.map HunkPlace.sides)
      = match lastMarked? places with
        | none => before
        | some x => !x.sides.newOpen := by
  have hmarked : (fun s : Sides => s.oldOpen || s.newOpen) ∘ HunkPlace.sides
      = fun x => x.sides.oldOpen || x.sides.newOpen := rfl
  rw [endedAfterAll, lastMarked?, ← List.map_reverse, List.find?_map, hmarked]
  cases places.reverse.find? fun x => x.sides.oldOpen || x.sides.newOpen <;> rfl

theorem mem_of_lastMarked? {places : List HunkPlace} {x : HunkPlace} (h : lastMarked? places = some x) :
    x ∈ places := List.mem_reverse.mp (List.mem_of_find?_eq_some h)

/-! ## Texts -/

/-- **The end of a text whose last line is kept.** Without markers the patched text ends with a newline if
the text did. Otherwise the last hunk with a marker decides: the last line is ended unless the marker
stands behind a line of the new side. A last line without characters always follows a newline. -/
theorem newline_iff_of_kept_end {before diff after : Text} {places : List HunkPlace} {last : HunkPlace}
    (h : applyDiff? before diff = some after) (hplaces : diffPlaces? before diff = some places)
    (hlast : places.getLast? = some last)
    (hkept : last.stop < (Document.ofText before).lines.length) :
    after.getLast? = some '\n' ↔
      match lastMarked? places with
      | none => before.getLast? = some '\n'
      | some x => x.sides.newOpen = false ∨ (Document.ofText before).lines.getLast? = some [] := by
  obtain ⟨patch, places', -, hplaces', -, hstand, finished, hnew, rfl⟩ := exists_diffPlaces? h
  obtain rfl : places' = places := Option.some.inj (hplaces'.symm.trans hplaces)
  have hne : (Document.ofText before).lines ≠ [] := List.ne_nil_of_length_pos (by omega)
  obtain ⟨front, l, hlines⟩ := (List.eq_nil_or_concat _).resolve_left hne
  rw [List.concat_eq_append] at hlines
  have hl : '\n' ∉ l := Document.newline_not_mem_lines (t := before) (by rw [hlines]; simp)
  have hstop : last.stop ≤ front.length := by
    rw [hlines, List.length_append, List.length_singleton] at hkept
    omega
  rw [List.getLast?_map, hlast, Option.map_some, Option.getD_some, hlines,
    List.drop_append_of_le_length hstop, ← List.append_assoc,
    Document.getLast?_toText_concat _ _ hl, endedAfterAll_eq, Document.getLast?_eq_newline_iff]
  cases hmarked : lastMarked? places' with
  | none =>
    constructor
    · rintro (hended | ⟨rfl, -⟩)
      · exact ⟨hne, hended⟩
      · exact ⟨hne, Document.ended_of_lines_eq_concat_nil hlines⟩
    · exact fun hended => Or.inl hended.2
  | some x =>
    have hx := mem_of_lastMarked? hmarked
    simp only [Bool.not_eq_true', List.getLast?_append, List.getLast?_singleton, Option.some_or,
      Option.some.injEq]
    refine or_congr_right' fun hopen => ⟨And.left, fun hempty => ⟨hempty, ?_⟩⟩
    -- the hunk has new lines, so the last line does not stand alone
    have hlines := Hunk.new_ne_nil (hstand x hx).sides (Bool.of_not_eq_false hopen)
    refine List.append_ne_nil_of_left_ne_nil (fun hnil => hlines ?_) _
    exact List.sublist_nil.mp (hnil ▸ hnew x hx)

/-- The marker in the first hunk tells about the old side only, so the last line counts as ended. -/
theorem newline_iff_of_kept_end_old_marker :
    let before := "a\nb".toList
    let diff := "@@ -1 +1 @@\n-a\n\\ No newline at end of file\n+c\n".toList
    ∃ places last, applyDiff? before diff = some "c\nb\n".toList ∧
      diffPlaces? before diff = some places ∧ places.getLast? = some last ∧
      last.stop < (Document.ofText before).lines.length ∧
      ("c\nb\n".toList.getLast? = some '\n' ↔
        match lastMarked? places with
        | none => before.getLast? = some '\n'
        | some x => x.sides.newOpen = false ∨ (Document.ofText before).lines.getLast? = some []) := by
  intro before diff
  have h : applyDiff? before diff = some "c\nb\n".toList := by decide +kernel
  have hplaces : diffPlaces? before diff = some
      [⟨⟨1, 1, 1, 1, ["-a", "\\ No newline at end of file", "+c"].map String.toList⟩,
        ⟨[['a']], [['c']], false, true, false⟩, 0⟩] := by decide +kernel
  exact ⟨_, _, h, hplaces, rfl, by decide, newline_iff_of_kept_end h hplaces rfl (by decide)⟩

/-- **A patch that keeps the last line can take its newline away.** The hunk below replaces the first of two
lines, and the marker behind its new line opens the text. -/
theorem not_newline_of_kept_end :
    ¬∀ (before diff after : Text) (places : List HunkPlace) (last : HunkPlace),
      applyDiff? before diff = some after → diffPlaces? before diff = some places →
      places.getLast? = some last → last.stop < (Document.ofText before).lines.length →
      (after.getLast? = some '\n' ↔ before.getLast? = some '\n') := by
  intro hall
  have hends := hall "a\nb\n".toList "@@ -1 +1 @@\n-a\n+c\n\\ No newline at end of file\n".toList
    "c\nb".toList
    [⟨⟨1, 1, 1, 1, ["-a", "+c", "\\ No newline at end of file"].map String.toList⟩,
      ⟨[['a']], [['c']], false, false, true⟩, 0⟩] _
    (by decide +kernel) (by decide +kernel) rfl (by decide)
  exact absurd (hends.mpr (by decide)) (by decide)

end PatchLint
