import PatchLint.Proofs.Diff.ClusterHunk
import PatchLint.Proofs.Diff.Placement
import PatchLint.Proofs.Diff.Script

/-!
# Making a diff and applying it

The diff between two texts leads from the one to the other (`applyDiff?_createDiff_of_ne`), whatever
the texts, the names and the number of context lines.

The two halves meet at `Tiling`. Making a diff gives clusters that tile the two documents, and each of
them is read back as it was written. Applying goes through a tiling cluster by cluster
(`Tiling.applyAll`): the lines in front of the floor are those of the new document, the lines behind
it those of the old one, and the shift is what the two have come apart so far. So each hunk fits at
the place it names, and nothing has to be searched for.

Whether the last line is ended is decided by the markers alone (`Tiling.endedAfter`). Behind a
cluster that is not the last one both documents go on, so only the last cluster can show the end of
either document.
-/

namespace PatchLint

open Document (Entry isOpen OpenOnlyLast)

/-! ## The end of the document -/

/-- **Behind a cluster that is not the last one, nothing has been said about the end.** -/
theorem Cluster.endedAfter_of_goes_on {c : Cluster} {gap a b : List Entry}
    (hold : OpenOnlyLast (gap ++ c.old ++ a)) (hnew : OpenOnlyLast (gap ++ c.new ++ b))
    (ha : a ≠ []) (hb : b ≠ []) :
    c.sides.endedAfter (!isOpen (gap ++ c.old ++ a)) = !isOpen a ∧
      isOpen (gap ++ c.new ++ b) = isOpen b := by
  have ho := hold.front ha
  have hn := hnew.front hb
  have hc := ho
  have hc' := hn
  rw [Document.isOpen_append, Bool.or_eq_false_iff] at hc hc'
  constructor
  · simp [Cluster.sides, Sides.endedAfter, hc.1, hc.2, hc'.2]
  · rw [Document.isOpen_append, hn, Bool.false_or]

/-- **The last cluster tells how the new document ends.** -/
theorem Cluster.endedAfter_last {c : Cluster} {gap es : List Entry}
    (hold : OpenOnlyLast (gap ++ c.old ++ es)) :
    c.sides.endedAfter (!isOpen (gap ++ c.old ++ es)) = !isOpen (gap ++ c.new ++ es) := by
  simp only [Cluster.sides, Sides.endedAfter, Document.isOpen_append]
  by_cases hn : isOpen c.new = true
  · simp [hn]
  rw [Bool.not_eq_true] at hn
  by_cases ho : isOpen c.old = true
  · -- an open entry is the last one, so there is nothing behind the cluster
    have hes : es = [] := by
      by_cases hes : es = []
      · exact hes
      · have hfront := hold.front hes
        rw [Document.isOpen_append, ho, Bool.or_true] at hfront
        cases hfront
    have hgap : isOpen gap = false := by
      rw [List.append_assoc] at hold
      refine hold.front fun hnil => ?_
      rw [(List.append_eq_nil_iff.mp hnil).1] at ho
      cases ho
    simp [hn, ho, hes, hgap]
  · rw [Bool.not_eq_true] at ho
    simp [hn, ho]

/-- Going through a tiling, the markers tell how the new document ends. -/
theorem Tiling.endedAfter {oldAt newAt : Nat} {a b : List Entry} {cs : List Cluster}
    (h : Tiling oldAt newAt a b cs) :
    OpenOnlyLast a → OpenOnlyLast b →
    cs.foldl (fun ended c => c.sides.endedAfter ended) (!isOpen a) = !isOpen b := by
  induction h with
  | nil oldAt newAt es =>
    intro _ _
    rfl
  | @cons oldAt newAt gap c a b cs ho hn hgo hrest ih =>
    intro hold hnew
    rw [List.foldl_cons]
    by_cases hcs : cs = []
    · subst hcs
      cases hrest
      exact Cluster.endedAfter_last hold
    · obtain ⟨ha, hb⟩ := hgo hcs
      obtain ⟨hflag, hopen⟩ := Cluster.endedAfter_of_goes_on hold hnew ha hb
      rw [hflag, hopen]
      exact ih hold.back hnew.back

/-! ## Applying -/

/-- The entries of the clusters of a tiling are entries of the two documents. -/
theorem Tiling.mem_sides {oldAt newAt : Nat} {a b : List Entry} {cs : List Cluster}
    (h : Tiling oldAt newAt a b cs) :
    ∀ c ∈ cs, (∀ e ∈ c.old, e ∈ a) ∧ ∀ e ∈ c.new, e ∈ b := by
  induction h with
  | nil => intro c hc; cases hc
  | cons gap ho hn hgo hrest ih =>
    intro c hc
    rcases List.mem_cons.mp hc with rfl | hc
    · exact ⟨fun e he => by simp [he], fun e he => by simp [he]⟩
    · exact ⟨fun e he => List.mem_append_right _ ((ih c hc).1 e he),
        fun e he => List.mem_append_right _ ((ih c hc).2 e he)⟩

/-- Behind the hunk of a cluster, the shift is what its end has come away from its end in the old
document. -/
theorem Cluster.shift_advance (c : Cluster) (p : Progress) (front : List Text) :
    (p.advance c.hunk c.sides front.length).shift
      = (front ++ c.sides.new).length - (c.oldBefore + c.old.length : Nat) := by
  show (front.length : Int) - c.hunk.anchor c.sides + c.sides.new.length - c.sides.old.length = _
  rw [c.anchor_hunk, List.length_append]
  simp only [Cluster.sides, List.length_map]
  omega

/-- **Applying the hunks of a tiling.** In front of the floor stands what is finished, behind it the old
document. If the shift is what the two have come apart, every hunk fits where its header says. -/
theorem Tiling.applyAll {oldAt newAt : Nat} {a b : List Entry} {cs : List Cluster}
    (h : Tiling oldAt newAt a b cs) :
    ∀ (p : Progress) (index : Nat) (done : List Text),
    (∀ c ∈ cs, c.hunk.sides? = some c.sides) →
    p.document.lines = done ++ a.map Entry.text → p.floor = done.length →
    p.shift = done.length - oldAt →
    ∃ q, p.applyAll index (cs.map Cluster.hunk) = .ok q ∧
      q.document = ⟨done ++ b.map Entry.text,
        cs.foldl (fun ended c => c.sides.endedAfter ended) p.document.ended⟩ := by
  induction h with
  | nil oldAt newAt es =>
    intro p index done _ hlines _ _
    refine ⟨p, rfl, ?_⟩
    rw [← hlines]
    rfl
  | @cons oldAt newAt gap c a b cs ho hn hgo hrest ih =>
    intro p index done hsides hlines hfloor hshift
    have hc := hsides c List.mem_cons_self
    have hcut : p.document.lines
        = (done ++ gap.map Entry.text) ++ c.sides.old ++ a.map Entry.text := by
      rw [hlines]
      simp [Cluster.sides]
    have hplace : (done ++ gap.map Entry.text).length = done.length + gap.length := by
      rw [List.length_append, List.length_map]
    have hstep := Progress.apply_at index hc hcut
      (by rw [c.anchor_hunk, hplace, hshift, ho]; omega)
      (by rw [hfloor, hplace]; omega)
    obtain ⟨q, hq, hdoc⟩ := ih
      (p.advance c.hunk c.sides (done ++ gap.map Entry.text).length) (index + 1)
      (done ++ gap.map Entry.text ++ c.sides.new)
      (fun c' hc' => hsides c' (List.mem_cons_of_mem _ hc'))
      (Progress.lines_advance c.hunk hcut) List.length_append.symm (c.shift_advance p _)
    refine ⟨q, ?_, ?_⟩
    · rw [List.map_cons, Progress.applyAll, hstep]
      exact hq
    · rw [hdoc]
      simp only [Cluster.sides, List.map_append, List.append_assoc, List.foldl_cons]
      rfl

/-! ## Texts -/

section

variable (before after oldName newName : Text) (context : Nat)

/-- The clusters between two texts. -/
def clustersBetween : List Cluster :=
  clusters context
    (script (Document.ofText before).entries (Document.ofText after).entries)

theorem clustersBetween_tiling :
    Tiling 0 0 (Document.ofText before).entries (Document.ofText after).entries
      (clustersBetween before after context) := by
  have h := clusters_tiling context
    (script (Document.ofText before).entries (Document.ofText after).entries)
  rwa [script_old, script_new] at h

theorem clustersBetween_self : clustersBetween before before context = [] := by
  unfold clustersBetween
  rw [script_self]
  split
  · rfl
  · exact clusters_same context _

/-- The hunks between two texts are well-formed. -/
theorem hunk_wellFormed_of_mem_clustersBetween {c : Cluster}
    (hc : c ∈ clustersBetween before after context) : c.hunk.WellFormed := by
  obtain ⟨hold, hnew⟩ := (clustersBetween_tiling before after context).mem_sides c hc
  exact Cluster.hunk_wellFormed
    (fun e he => Document.newline_not_mem_entries (hold e he))
    (fun e he => Document.newline_not_mem_entries (hnew e he))

variable {before after oldName newName}

/-- The diff between two texts is read back as the hunks between them. -/
theorem read?_createDiff (hne : before ≠ after) (ho : '\n' ∉ oldName) (hn : '\n' ∉ newName) :
    Patch.read? (createDiff before after oldName newName context)
      = some ⟨Text.strip oldName, Text.strip newName,
          (clustersBetween before after context).map Cluster.hunk⟩ := by
  have hdiffer : (Document.ofText before).entries ≠ (Document.ofText after).entries :=
    fun he => hne (Document.ofText_injective (Document.ofText_eq_of_entries he))
  refine Patch.read?_render ?_ ho hn ?_
  · intro hnil
    exact (clustersBetween_tiling before after context).ne_nil hdiffer (List.map_eq_nil_iff.mp hnil)
  · intro h hh
    obtain ⟨c, hc, rfl⟩ := List.mem_map.mp hh
    exact hunk_wellFormed_of_mem_clustersBetween before after context hc

/-- **The diff between two texts leads from the one to the other.** -/
theorem applyDiff?_createDiff_of_ne (hne : before ≠ after) (ho : '\n' ∉ oldName)
    (hn : '\n' ∉ newName) :
    applyDiff? before (createDiff before after oldName newName context) = some after := by
  have htiling := clustersBetween_tiling before after context
  obtain ⟨q, hok, hdoc⟩ := htiling.applyAll ⟨Document.ofText before, 0, 0⟩ 1 []
    (fun c hc => Cluster.sides?_hunk
      (hunk_wellFormed_of_mem_clustersBetween before after context hc))
    (by rw [Document.map_text_entries]; rfl) rfl rfl
  have hended := htiling.endedAfter (Document.entries_openOnlyLast _)
    (Document.entries_openOnlyLast _)
  have hafter : q.document = Document.ofText after := by
    rw [hdoc, Document.ended_ofText before, hended, ← Document.ended_ofText,
      Document.map_text_entries]
    rfl
  simp only [applyDiff?, applyDiff, read?_createDiff context hne ho hn, Patch.apply, hok, hafter,
    Document.toText_ofText]
  rfl

/-- Equal texts have no hunks between them. -/
theorem hunks_between_self (text oldName newName : Text) (context : Nat) :
    (Patch.between oldName newName context (.ofText text) (.ofText text)).hunks = [] :=
  List.map_eq_nil_iff.mpr (clustersBetween_self text context)

/-- The diff of equal texts is the two name lines. -/
theorem createDiff_self (text oldName newName : Text) (context : Nat) :
    createDiff text text oldName newName context
      = "--- ".toList ++ oldName ++ '\n' :: ("+++ ".toList ++ newName ++ ['\n']) := by
  have hself := hunks_between_self text oldName newName context
  simp only [createDiff, Patch.render, Patch.renderLines, hself, List.flatMap_nil, List.flatMap_cons,
    List.append_nil, List.append_assoc]
  rfl

theorem read?_createDiff_self (text : Text) (ho : '\n' ∉ oldName) (hn : '\n' ∉ newName) :
    Patch.read? (createDiff text text oldName newName context) = none :=
  Patch.read?_render_of_hunks_eq_nil (hunks_between_self text oldName newName context) ho hn

end

/-- **Making a diff and applying it.** The diff between different texts leads from the one to the
other. Equal texts give the two name lines only, which are no patch. -/
theorem createDiff_roundtrip (before after oldName newName : Text) (context : Nat)
    (ho : '\n' ∉ oldName) (hn : '\n' ∉ newName) :
    (before ≠ after →
      applyDiff? before (createDiff before after oldName newName context) = some after) ∧
    (before = after →
      createDiff before after oldName newName context
        = "--- ".toList ++ oldName ++ '\n' :: ("+++ ".toList ++ newName ++ ['\n']) ∧
      Patch.read? (createDiff before after oldName newName context) = none ∧
      applyDiff? before (createDiff before after oldName newName context) = none) := by
  refine ⟨fun hne => applyDiff?_createDiff_of_ne context hne ho hn, ?_⟩
  rintro rfl
  have hread := read?_createDiff_self context before ho hn
  refine ⟨createDiff_self before oldName newName context, hread, ?_⟩
  simp only [applyDiff?, applyDiff, hread]
  rfl

/-- Lines that look like parts of a diff, an ending of their own, and an open last line. -/
theorem createDiff_roundtrip_marks :
    '\n' ∉ "--- a".toList ∧ '\n' ∉ "@@ b".toList ∧
      applyDiff? "-- x\n\\ y\r\n@@ -1 +1 @@\nz".toList
        (createDiff "-- x\n\\ y\r\n@@ -1 +1 @@\nz".toList "++ x\n@@ -1 +1 @@\nz\n".toList
          "--- a".toList "@@ b".toList 0)
        = some "++ x\n@@ -1 +1 @@\nz\n".toList ∧
      Patch.read? (createDiff "-- x\n".toList "-- x\n".toList "--- a".toList "@@ b".toList 0)
        = none := by
  have ho : '\n' ∉ "--- a".toList := by decide
  have hn : '\n' ∉ "@@ b".toList := by decide
  exact ⟨ho, hn, (createDiff_roundtrip _ _ _ _ 0 ho hn).1 (by decide),
    ((createDiff_roundtrip _ _ _ _ 0 ho hn).2 rfl).2.1⟩

end PatchLint
