import PatchLint.Proofs.Diff.ChangedLines
import PatchLint.Proofs.Diff.Roundtrip

/-!
# A diff for a text behind more lines

The diff between two texts still applies when lines are added in front of the first of them, if its first hunk
has context and can be put at one place only (`applyDiff?_createDiff_behind`).

The first hunk has to be searched for. From there on the shift tells how far the text has moved, so each of
the other hunks fits where its header says by `Tiling.applyAll`, and it does not matter whether its old
lines occur elsewhere too.
-/

namespace PatchLint

open Document (Entry isOpen)

/-! ## Context -/

/-- A line that stays is on both sides. -/
theorem sides_ne_nil_of_context {ls : List Text} (h : ∃ l ∈ ls, Tag.of l = .context) :
    oldSide ls ≠ [] ∧ newSide ls ≠ [] := by
  obtain ⟨l, hl, htag⟩ := h
  refine ⟨List.ne_nil_of_mem (a := l.drop 1) ?_, List.ne_nil_of_mem (a := l.drop 1) ?_⟩
  · exact List.mem_map_of_mem (List.mem_filter.mpr ⟨hl, by rw [htag]; rfl⟩)
  · exact List.mem_map_of_mem (List.mem_filter.mpr ⟨hl, by rw [htag]; rfl⟩)

/-! ## Clusters -/

/-- The first cluster of a tiling. -/
theorem Tiling.exists_first {oldAt newAt : Nat} {a b : List Entry} {c : Cluster} {cs : List Cluster}
    (h : Tiling oldAt newAt a b (c :: cs)) :
    ∃ gap a' b', a = gap ++ c.old ++ a' ∧ b = gap ++ c.new ++ b' ∧
      c.oldBefore = oldAt + gap.length ∧
      Tiling (c.oldBefore + c.old.length) (c.newBefore + c.new.length) a' b' cs := by
  cases h with
  | cons gap ho hn hgo hrest => exact ⟨gap, _, _, rfl, rfl, ho, hrest⟩

/-- A cluster with lines on both sides stands in two documents with lines. -/
theorem Tiling.lines_ne_nil {oldAt newAt : Nat} {a b : List Entry} {c : Cluster} {cs : List Cluster}
    (h : Tiling oldAt newAt a b (c :: cs)) (hsides : c.sides.old ≠ [] ∧ c.sides.new ≠ []) :
    a.map Entry.text ≠ [] ∧ b.map Entry.text ≠ [] := by
  obtain ⟨gap, a', b', rfl, rfl, -, -⟩ := h.exists_first
  simp only [List.map_append]
  exact ⟨List.append_ne_nil_of_left_ne_nil (List.append_ne_nil_of_right_ne_nil _ hsides.1) _,
    List.append_ne_nil_of_left_ne_nil (List.append_ne_nil_of_right_ne_nil _ hsides.2) _⟩

/-- **A hunk that is searched for, and the hunks behind it.** The lines `moved` stand in front of the old
document, and the old lines of the first hunk occur nowhere else. -/
theorem Tiling.applyAll_behind {a b : List Entry} {c : Cluster} {cs : List Cluster}
    (h : Tiling 0 0 a b (c :: cs)) {p : Progress} {moved : List Text}
    (hsides : ∀ d ∈ c :: cs, d.hunk.sides? = some d.sides)
    (hlines : p.document.lines = moved ++ a.map Entry.text) (hfloor : p.floor = 0)
    (hcontext : c.sides.hasContext = true)
    (honce : ∀ i j, occursAt p.document.lines c.sides.old i = true →
      occursAt p.document.lines c.sides.old j = true → i = j) :
    ∃ q, p.applyAll 1 ((c :: cs).map Cluster.hunk) = .ok q ∧
      q.document = ⟨moved ++ b.map Entry.text,
        (c :: cs).foldl (fun ended c => c.sides.endedAfter ended) p.document.ended⟩ := by
  obtain ⟨gap, a', b', rfl, rfl, ho, hrest⟩ := h.exists_first
  have hcut : p.document.lines
      = (moved ++ gap.map Entry.text) ++ c.sides.old ++ a'.map Entry.text := by
    rw [hlines]
    simp [Cluster.sides]
  have hfits : fitsAt p.document.lines c.sides.old p.floor (moved ++ gap.map Entry.text).length = true :=
    fitsAt_iff.mpr ⟨_, _, hcut, rfl, by rw [hfloor]; exact Nat.zero_le _⟩
  have hplace := locate_of_unique (c.hunk.anchor c.sides + p.shift) hfits fun n hn => by
    have hoccurs {n : Nat} (hn : fitsAt p.document.lines c.sides.old p.floor n = true) :
        occursAt p.document.lines c.sides.old n = true := by
      rw [fitsAt, Bool.and_eq_true] at hn
      exact hn.2
    exact honce n _ (hoccurs hn) (hoccurs hfits)
  have hstep : p.apply 1 c.hunk
      = .ok (p.advance c.hunk c.sides (moved ++ gap.map Entry.text).length) := by
    simp only [Progress.apply, hsides c List.mem_cons_self, hcontext, hplace]
  -- the shift is now what the old document has been moved by, and stays so
  obtain ⟨q, hq, hdoc⟩ := hrest.applyAll
    (p.advance c.hunk c.sides (moved ++ gap.map Entry.text).length) 2
    (moved ++ gap.map Entry.text ++ c.sides.new)
    (fun d hd => hsides d (List.mem_cons_of_mem _ hd))
    (Progress.lines_advance c.hunk hcut) List.length_append.symm (c.shift_advance p _)
  refine ⟨q, ?_, ?_⟩
  · rw [List.map_cons, Progress.applyAll, hstep]
    exact hq
  · rw [hdoc]
    simp only [Cluster.sides, List.map_append, List.append_assoc, List.foldl_cons]
    rfl

/-! ## Texts -/

/-- **A diff applies behind lines that are added in front.** Its first hunk has context, and the old lines of
this hunk occur at no second place; the other hunks are free. -/
theorem applyDiff?_createDiff_behind (front before after oldName newName : Text) (context : Nat)
    (hne : before ≠ after) (ho : '\n' ∉ oldName) (hn : '\n' ∉ newName)
    (hfront : front = [] ∨ front.getLast? = some '\n') {patch : Patch} {first : Hunk}
    (hread : Patch.read? (createDiff before after oldName newName context) = some patch)
    (hfirst : patch.hunks.head? = some first) (hcontext : ∃ l ∈ first.body, Tag.of l = .context)
    (honce : ∀ i j, occursAt (Document.ofText (front ++ before)).lines (oldSide first.body) i = true →
      occursAt (Document.ofText (front ++ before)).lines (oldSide first.body) j = true → i = j) :
    applyDiff? (front ++ before) (createDiff before after oldName newName context)
      = some (front ++ after) := by
  have hdiff := read?_createDiff context hne ho hn
  obtain rfl := Option.some.inj (hread.symm.trans hdiff)
  have htiling := clustersBetween_tiling before after context
  have hw : ∀ c ∈ clustersBetween before after context, c.hunk.WellFormed :=
    fun c hc => hunk_wellFormed_of_mem_clustersBetween before after context hc
  generalize clustersBetween before after context = clusters at hfirst hdiff htiling hw
  cases clusters with
  | nil => cases hfirst
  | cons c cs =>
    obtain rfl : c.hunk = first := Option.some.inj hfirst
    have hsides : ∀ d ∈ c :: cs, d.hunk.sides? = some d.sides := fun d hd => Cluster.sides?_hunk (hw d hd)
    obtain ⟨hold, hnew, -, hhas⟩ := sides_of_sidesFrom c.hunk.body (hsides c List.mem_cons_self)
    rw [show Sides.empty.old = [] from rfl, List.nil_append] at hold
    rw [show Sides.empty.new = [] from rfl, List.nil_append] at hnew
    obtain ⟨hbefore, hafter⟩ : (Document.ofText before).lines ≠ [] ∧
        (Document.ofText after).lines ≠ [] := by
      rw [← Document.map_text_entries, ← Document.map_text_entries]
      refine htiling.lines_ne_nil ?_
      rw [hold, hnew]
      exact sides_ne_nil_of_context hcontext
    have hdoc := Document.ofText_append hfront fun hnil : before = [] => hbefore (by rw [hnil]; rfl)
    have hlines : (Document.ofText (front ++ before)).lines
        = (Document.ofText front).lines ++ (Document.ofText before).entries.map Entry.text := by
      rw [hdoc, Document.map_text_entries]
    obtain ⟨q, hq, hresult⟩ := htiling.applyAll_behind (p := ⟨.ofText (front ++ before), 0, 0⟩) hsides
      hlines rfl (hhas.mpr (Or.inr hcontext)) (by rw [hold]; exact honce)
    have htext : q.document.toText = front ++ after := by
      have hended := htiling.endedAfter (Document.entries_openOnlyLast _)
        (Document.entries_openOnlyLast _)
      rw [hresult, hdoc, Document.ended_ofText before, hended, ← Document.ended_ofText,
        Document.map_text_entries, Document.toText_lines_append _ hfront hafter]
      exact congrArg (front ++ ·) (Document.toText_ofText after)
    simp only [applyDiff?, applyDiff, hdiff, Patch.apply, hq, htext]
    rfl

/-- A line is added in front of two hunks. The old lines of the second one occur twice, and the place that
its header names is not theirs any more. -/
theorem applyDiff?_createDiff_behind_header :
    let before := "k\na\nb\nx\nz\nx\ny\nx\nz\nx\n".toList
    let after := "k\nA\nb\nx\nz\nx\ny\nx\nZ\nx".toList
    let diff := createDiff before after defaultOldName defaultNewName 1
    let first : Hunk := ⟨1, 3, 1, 3, [" k", "-a", "+A", " b"].map String.toList⟩
    before ≠ after ∧ (Patch.read? diff).map (·.hunks.head?) = some (some first) ∧
      (∃ l ∈ first.body, Tag.of l = .context) ∧
      (∀ i, occursAt (Document.ofText ("h\n".toList ++ before)).lines (oldSide first.body) i = true →
        i = 1) ∧
      applyDiff? ("h\n".toList ++ before) diff = some ("h\n".toList ++ after) := by
  intro before after diff first
  have hne : before ≠ after := by decide
  have hhead : (Patch.read? diff).map (·.hunks.head?) = some (some first) := by decide +kernel
  have hcontext : ∃ l ∈ first.body, Tag.of l = .context := ⟨" k".toList, by decide, rfl⟩
  have honce : ∀ i, occursAt (Document.ofText ("h\n".toList ++ before)).lines (oldSide first.body) i
      = true → i = 1 := by
    have hwithin : ∀ i < 11, occursAt (Document.ofText ("h\n".toList ++ before)).lines
        (oldSide first.body) i = true → i = 1 := by decide +kernel
    intro i hi
    by_cases hlt : i < 11
    · exact hwithin i hlt hi
    · rw [occursAt, List.drop_eq_nil_of_le (show 11 ≤ i by omega)] at hi
      exact absurd hi (by decide)
  obtain ⟨patch, hread, hfirst⟩ := Option.map_eq_some_iff.mp hhead
  refine ⟨hne, hhead, hcontext, honce, ?_⟩
  exact applyDiff?_createDiff_behind _ _ _ _ _ 1 hne (by decide) (by decide) (Or.inr (by decide)) hread
    hfirst hcontext fun i j hi hj => (honce i hi).trans (honce j hj).symm

end PatchLint
