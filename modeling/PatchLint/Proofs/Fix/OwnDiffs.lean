import PatchLint.Proofs.Diff.Roundtrip
import PatchLint.Proofs.Fix.LineRemoval

/-!
# Own diffs can be read

A diff from outside may hold a number with more digits than are converted. The numbers of the diffs that
are made here count the lines of a text, so they are short enough if the text is: what reads such a diff
need not look for long numbers again.

* `overlongNumber?_createDiff` — the diff between two texts can be read
* `overlongNumber?_of_fixFor?` — and so can the diff that deletes a line
-/

namespace PatchLint

open Document (Entry)

/-! ## Lines -/

theorem Text.length_pieces_le (sep : Char) (t : Text) : (Text.pieces sep t).length ≤ t.length + 1 := by
  rw [Text.length_pieces]
  exact Nat.succ_le_succ List.count_le_length

theorem Document.length_entries_ofText_le (t : Text) : (ofText t).entries.length ≤ t.length + 1 := by
  rw [← List.length_map, Document.map_text_entries]
  exact Nat.le_trans (Document.lines_prefix_pieces t).length_le (Text.length_pieces_le _ t)

/-! ## Diffs between texts -/

theorem startNumber_le (before count : Nat) : startNumber before count ≤ before + count := by
  unfold startNumber
  split
  · omega
  · omega

/-- **The numbers of the hunks of a tiling count entries.** -/
theorem Tiling.number_le {oldAt newAt bound : Nat} {a b : List Entry} {cs : List Cluster}
    (h : Tiling oldAt newAt a b cs) (ha : oldAt + a.length ≤ bound) (hb : newAt + b.length ≤ bound) :
    ∀ c ∈ cs, ∀ n ∈ c.hunk.numbers, n ≤ bound := by
  induction h with
  | nil =>
    intro c hc
    cases hc
  | @cons oldAt newAt gap c a b cs ho hn hgo hrest ih =>
    rw [List.length_append, List.length_append] at ha hb
    refine List.forall_mem_cons.mpr ⟨?_, ih (by omega) (by omega)⟩
    have hold := startNumber_le c.oldBefore c.old.length
    have hnew := startNumber_le c.newBefore c.new.length
    show ∀ n ∈ [startNumber c.oldBefore c.old.length, c.old.length,
      startNumber c.newBefore c.new.length, c.new.length], n ≤ bound
    simp only [List.forall_mem_cons, List.not_mem_nil, false_implies, implies_true, and_true]
    omega

/-- **The diff between two texts can be read.** -/
theorem overlongNumber?_createDiff {before after oldName newName : Text} (context : Nat)
    (ho : '\n' ∉ oldName) (hn : '\n' ∉ newName) (hbefore : before.length + 1 < Text.powerOfTen Text.digitLimit)
    (hafter : after.length + 1 < Text.powerOfTen Text.digitLimit) :
    overlongNumber? (createDiff before after oldName newName context) = none := by
  let p := Patch.between oldName newName context (.ofText before) (.ofText after)
  have hw : ∀ h ∈ p.hunks, h.WellFormed := by
    intro h hh
    obtain ⟨c, hc, rfl⟩ := List.mem_map.mp hh
    exact hunk_wellFormed_of_mem_clustersBetween before after context hc
  refine (p.spelled_renderLines.overlongNumber?_eq_none_iff (p.diffLines_render ho hn hw) hw).mpr ?_
  intro h hh n hmem
  obtain ⟨c, hc, rfl⟩ := List.mem_map.mp hh
  have hold := Document.length_entries_ofText_le before
  have hnew := Document.length_entries_ofText_le after
  have hle : n ≤ max before.length after.length + 1 :=
    (clustersBetween_tiling before after context).number_le (by omega) (by omega) c hc n hmem
  omega

/-! ## Diffs that delete a line -/

/-- **The diff that deletes a line can be read.** -/
theorem overlongNumber?_of_fixFor? {t diff : Text} {d : Diagnostic} (h : fixFor? t d = some diff)
    (ht : t.length + 1 < Text.powerOfTen Text.digitLimit) : overlongNumber? diff = none := by
  obtain ⟨index, line, -, hline, rfl⟩ := fixFor?_eq_some h
  have hnewline : '\n' ∉ line := Text.not_mem_of_mem_pieces (List.mem_of_getElem? hline)
  obtain ⟨lines, hspelled, hlines⟩ := exists_spelled_removalDiff (index + 1) hnewline
  refine (hspelled.overlongNumber?_eq_none_iff hlines
    (wellFormed_of_mem_removalPatch (index + 1) hnewline)).mpr fun hunk hhunk n hn => ?_
  rw [List.mem_singleton.mp hhunk] at hn
  have hindex := (List.getElem?_eq_some_iff.mp hline).1
  have hpieces := Text.length_pieces_le '\n' t
  have hone : 1 < Text.powerOfTen Text.digitLimit := Text.one_lt_powerOfTen (by decide)
  simp only [removalHunk, Hunk.numbers, List.mem_cons, List.not_mem_nil, or_false] at hn
  omega

end PatchLint
