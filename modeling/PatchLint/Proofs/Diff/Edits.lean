import PatchLint.Proofs.Diff.ChangedLines
import PatchLint.Proofs.Diff.Roundtrip

/-!
# Edits that rebuild a document

A diff can be read as text edits in place of being applied. The reader of edits keeps a cursor and the
context since the last change by itself, and here it is shown to agree with the sides of the hunks.

* `Hunk.exists_edit?` — the edit of a hunk replaces its old side from the first to the last change
* `clusters_apart` — between the hunks of a diff there are lines that no hunk shows
* `Tiling.replaceLines_edits` — so replacing the ranges of the edits one by one, the last one first, leads
  to the new lines
* `replaceLines_createDiff` — for the diff between two texts. The new lines are joined in the text of an
  edit, in which a single empty line would be lost; so no line of the new text may be empty.
-/

namespace PatchLint

open Document (Entry)

/-! ## The edit of a hunk -/

/-- **The edit of a hunk** replaces its old side from the first to the last change. In front of the changes
and behind them the two sides are equal. -/
theorem Hunk.exists_edit? {h : Hunk} {sides : Sides} (hsides : h.sides? = some sides) :
    ∃ lead removed added tail, sides.old = lead ++ removed ++ tail ∧
      sides.new = lead ++ added ++ tail ∧
      h.edit? = editAt? (h.firstLine + lead.length) removed added := by
  obtain ⟨hold, hnew, hknown, -⟩ := sides_of_sidesFrom h.body hsides
  have hparts := parts_append h.body
  refine ⟨oldSide (linesBeforeChanges h.body), oldSide (changedLines h.body),
    newSide (changedLines h.body), oldSide (linesAfterChanges h.body), ?_, ?_, h.edit?_eq hknown⟩
  · rw [hold, ← oldSide_append, ← oldSide_append, List.append_assoc, hparts]
    rfl
  · rw [hnew, ← newSide_linesBeforeChanges, ← newSide_linesAfterChanges, ← newSide_append,
      ← newSide_append, List.append_assoc, hparts]
    rfl

/-! ## Replacing lines -/

/-- The lines of the new text of an edit. The empty text has none. -/
def TextEdit.newLines (e : TextEdit) : List Text :=
  if e.newText.isEmpty then [] else Text.pieces '\n' e.newText

/-- Puts the new lines of an edit in the place of its range. -/
def TextEdit.replace (e : TextEdit) (lines : List Text) : List Text :=
  splice lines e.startLine.toNat (e.endLine - e.startLine).toNat e.newLines

/-- Replaces the ranges of all edits. The last edit comes first, so the lines that the others name
have not moved. -/
def replaceLines (edits : List TextEdit) (lines : List Text) : List Text :=
  edits.foldr TextEdit.replace lines

theorem newLines_joinWith (start stop : Int) {ls : List Text} (hline : ∀ l ∈ ls, '\n' ∉ l)
    (hfull : ∀ l ∈ ls, l ≠ []) :
    (⟨start, stop, Text.joinWith ['\n'] ls⟩ : TextEdit).newLines = ls := by
  unfold TextEdit.newLines
  cases ls with
  | nil => rfl
  | cons l ls =>
    have hpieces := Text.pieces_joinWith (List.cons_ne_nil l ls) hline
    have hne : Text.joinWith ['\n'] (l :: ls) ≠ [] := by
      intro hnil
      rw [hnil] at hpieces
      have hl : l = [] := (List.cons.inj hpieces).1.symm
      exact hfull l List.mem_cons_self hl
    rw [if_neg (by simpa using hne), hpieces]

/-! ## Putting lines -/

/-- Puts lines in the place of the ranges of edits, the last one first. -/
def putLines (puts : List (TextEdit × List Text)) (lines : List Text) : List Text :=
  puts.foldr (fun x ls => splice ls x.1.startLine.toNat (x.1.endLine - x.1.startLine).toNat x.2) lines

/-- Lines that an edit stands for: its new text, cut into lines that change something. -/
structure TextEdit.StandsFor (e : TextEdit) (new : List Text) : Prop where
  text : Text.joinWith ['\n'] new = e.newText
  range : e.startLine ≤ e.endLine
  changes : e.startLine = e.endLine → new ≠ []

theorem putLines_append (puts rest : List (TextEdit × List Text)) (lines : List Text) :
    putLines (puts ++ rest) lines = putLines puts (putLines rest lines) := List.foldr_append

/-- Edits replace their ranges by the lines they stand for, if these are the lines of their new texts. -/
theorem replaceLines_map_fst {puts : List (TextEdit × List Text)}
    (h : ∀ x ∈ puts, x.1.newLines = x.2) (lines : List Text) :
    replaceLines (puts.map Prod.fst) lines = putLines puts lines := by
  induction puts with
  | nil => rfl
  | cons x puts ih =>
    obtain ⟨hx, hputs⟩ := List.forall_mem_cons.mp h
    show TextEdit.replace x.1 (replaceLines (puts.map Prod.fst) lines) = _
    rw [ih hputs, TextEdit.replace, hx]
    rfl

/-- The edit at a place stands for the lines that are put there. -/
theorem exists_put_editAt? (front removed back added : List Text) :
    ∃ put, put.map Prod.fst = (editAt? front.length removed added).toList ∧
      (∀ x ∈ put, x.1.StandsFor x.2 ∧ x.2 = added) ∧
      putLines put (front ++ removed ++ back) = front ++ added ++ back := by
  unfold editAt?
  split
  · next hnone =>
    rw [Bool.and_eq_true, List.isEmpty_iff, List.isEmpty_iff] at hnone
    refine ⟨[], rfl, by simp, ?_⟩
    rw [hnone.1, hnone.2]
    rfl
  · next hsome =>
    refine ⟨[(_, added)], rfl, ?_, ?_⟩
    · rw [List.forall_mem_singleton]
      refine ⟨⟨rfl, by dsimp only; omega, fun hrange hnil => hsome ?_⟩, rfl⟩
      dsimp only at hrange hnil
      have hremoved : removed.length = 0 := by omega
      rw [hnil, List.length_eq_zero_iff.mp hremoved]
      rfl
    · have hcount : ((front.length : Int) + removed.length - front.length).toNat = removed.length := by
        omega
      show splice (front ++ removed ++ back) (front.length : Int).toNat
        (front.length + removed.length - front.length : Int).toNat added = _
      rw [hcount, Int.toNat_natCast, splice_append]

/-! ## Clusters -/

namespace Cluster

variable {c : Cluster}

/-- The header of the hunk names the place of the cluster. -/
theorem firstLine_hunk (c : Cluster) : c.hunk.firstLine = c.oldBefore := by
  show (if 0 < c.old.length then ((startNumber c.oldBefore c.old.length : Nat) : Int) - 1
    else (startNumber c.oldBefore c.old.length : Nat)) = c.oldBefore
  unfold startNumber
  by_cases hold : c.old.length = 0
  · rw [if_neg (by omega), if_pos hold]
  · rw [if_pos (by omega), if_neg hold]
    omega

theorem exists_edit? (hw : c.hunk.WellFormed) :
    ∃ lead removed added tail, c.old.map Entry.text = lead ++ removed ++ tail ∧
      c.new.map Entry.text = lead ++ added ++ tail ∧
      c.hunk.edit? = editAt? (c.oldBefore + lead.length) removed added := by
  have h := Hunk.exists_edit? (sides?_hunk hw)
  rwa [c.firstLine_hunk] at h

/-- The edit of a cluster lies within its old lines. -/
theorem bounds_of_edit? (hw : c.hunk.WellFormed) {e : TextEdit} (he : c.hunk.edit? = some e) :
    (c.oldBefore : Int) ≤ e.startLine ∧ e.startLine ≤ e.endLine ∧
      e.endLine ≤ (c.oldBefore + c.old.length : Nat) := by
  obtain ⟨lead, removed, added, tail, hold, -, hedit⟩ := exists_edit? hw
  have hlength := congrArg List.length hold
  rw [List.length_map, List.length_append, List.length_append] at hlength
  rw [hedit, editAt?] at he
  split at he
  · cases he
  · cases he
    dsimp only
    omega

/-- Whether there are old lines between two clusters. -/
def Apart (c d : Cluster) : Prop := c.oldBefore + c.old.length < d.oldBefore

end Cluster

/-- A common segment that is cut leaves lines between its first and its last ones. -/
theorem clustersFrom_apart (context : Nat) (script : List (Segment Entry)) :
    ∀ (oldNow newNow : Nat) (current : Cluster),
    oldNow = current.oldBefore + current.old.length →
    (∀ c ∈ clustersFrom context oldNow newNow current script, current.oldBefore ≤ c.oldBefore) ∧
      (clustersFrom context oldNow newNow current script).Pairwise Cluster.Apart := by
  induction script with
  | nil =>
    intro oldNow newNow current _
    rw [clustersFrom]
    split
    · simp
    · simp
  | cons s rest ih =>
    intro oldNow newNow current hnow
    have hpush := ih (oldNow + s.old.length) (newNow + s.new.length) (current.push s)
      (by rw [hnow, Cluster.old_push, Cluster.oldBefore_push, List.length_append]; omega)
    cases s with
    | change removed added => exact hpush
    | same items =>
      rw [clustersFrom]
      simp only []
      split
      · next hlong =>
        -- the segment is longer than the context on both of its ends, so a line is left between them
        have htail : (items.drop (items.length - context)).length = context := by
          rw [List.length_drop]
          omega
        have hshown : (items.take context).length = context := by
          rw [List.length_take]
          omega
        obtain ⟨hbehind, hpairs⟩ := ih (oldNow + items.length) (newNow + items.length)
          ⟨oldNow + items.length - context, newNow + items.length - context,
            [.same (items.drop (items.length - context))]⟩
          (by rw [(Cluster.sides_same _ _ _).1, htail]; dsimp only; omega)
        rw [htail]
        refine ⟨?_, List.Pairwise.cons ?_ hpairs⟩
        · intro c hc
          rcases List.mem_cons.mp hc with rfl | hc
          · exact Nat.le_refl _
          · have hle := hbehind c hc
            dsimp only at hle
            omega
        · intro c hc
          have hle := hbehind c hc
          dsimp only at hle
          rw [Cluster.Apart, Cluster.old_push, Cluster.oldBefore_push, List.length_append, Segment.old,
            hshown]
          omega
      · exact hpush

/-- **Between the clusters of a script there are lines that none of them shows.** -/
theorem clusters_apart (context : Nat) (script : List (Segment Entry)) :
    (clusters context script).Pairwise Cluster.Apart := by
  unfold clusters
  split
  · next items rest =>
    exact (clustersFrom_apart context _ (items.length - context) (items.length - context)
      ⟨items.length - context, items.length - context, []⟩ rfl).2
  · exact (clustersFrom_apart context _ 0 0 ⟨0, 0, []⟩ rfl).2

/-! ## Tilings -/

/-- The clusters of a tiling lie within the old entries. -/
theorem Tiling.end_le {oldAt newAt : Nat} {a b : List Entry} {cs : List Cluster}
    (h : Tiling oldAt newAt a b cs) : ∀ c ∈ cs, c.oldBefore + c.old.length ≤ oldAt + a.length := by
  induction h with
  | nil => intro c hc; cases hc
  | cons gap ho hn hgo hrest ih =>
    intro d hd
    rw [List.length_append, List.length_append]
    rcases List.mem_cons.mp hd with rfl | hd
    · omega
    · have hle := ih d hd
      omega

/-- **The edits of a tiling stand for lines that lead to the new document.** Behind the lines that have been
passed, putting these lines makes the new lines of the old ones. -/
theorem Tiling.exists_putLines {oldAt newAt : Nat} {a b : List Entry} {cs : List Cluster}
    (h : Tiling oldAt newAt a b cs) :
    ∀ (passed : List Text), passed.length = oldAt → (∀ c ∈ cs, c.hunk.WellFormed) →
    ∃ puts, puts.map Prod.fst = cs.filterMap (fun c => c.hunk.edit?) ∧
      (∀ x ∈ puts, x.1.StandsFor x.2 ∧ ∀ l ∈ x.2, l ∈ b.map Entry.text) ∧
      putLines puts (passed ++ a.map Entry.text) = passed ++ b.map Entry.text := by
  induction h with
  | nil =>
    intro passed _ _
    exact ⟨[], rfl, by simp, rfl⟩
  | @cons oldAt newAt gap c a b cs ho hn hgo hrest ih =>
    intro passed hpassed hw
    obtain ⟨lead, removed, added, tail, hold, hnew, hedit⟩ :=
      Cluster.exists_edit? (hw c List.mem_cons_self)
    -- the edits behind this one leave the lines up to its end where they are
    obtain ⟨rest, hrests, hstand, hbehind⟩ := ih (passed ++ gap.map Entry.text ++ c.old.map Entry.text)
      (by simp only [List.length_append, List.length_map]; omega)
      (fun c' hc' => hw c' (List.mem_cons_of_mem _ hc'))
    obtain ⟨put, hput, hadded, hreplace⟩ := exists_put_editAt? (passed ++ gap.map Entry.text ++ lead)
      removed (tail ++ b.map Entry.text) added
    have hplace : ((passed ++ gap.map Entry.text ++ lead).length : Int) = c.oldBefore + lead.length := by
      simp only [List.length_append, List.length_map]
      omega
    refine ⟨put ++ rest, ?_, ?_, ?_⟩
    · rw [List.map_append, hput, hrests, hplace, ← hedit, List.filterMap_cons]
      cases c.hunk.edit? <;> rfl
    · intro x hx
      rcases List.mem_append.mp hx with hx | hx
      · obtain ⟨hfor, hlines⟩ := hadded x hx
        refine ⟨hfor, fun l hl => ?_⟩
        rw [hlines] at hl
        simp only [List.map_append, hnew, List.mem_append]
        exact Or.inl (Or.inr (Or.inl (Or.inr hl)))
      · refine ⟨(hstand x hx).1, fun l hl => ?_⟩
        rw [List.map_append]
        exact List.mem_append_right _ ((hstand x hx).2 l hl)
    · rw [putLines_append, List.map_append, List.map_append, ← List.append_assoc, ← List.append_assoc,
        hbehind, hold, List.map_append, List.map_append, hnew]
      simpa only [List.append_assoc] using hreplace

/-- **Replacing the ranges of the edits of a tiling.** If no new line is empty, the edits do so by themselves. -/
theorem Tiling.replaceLines_edits {oldAt newAt : Nat} {a b : List Entry} {cs : List Cluster}
    (h : Tiling oldAt newAt a b cs) (passed : List Text) (hpassed : passed.length = oldAt)
    (hw : ∀ c ∈ cs, c.hunk.WellFormed) (hlines : ∀ e ∈ b, '\n' ∉ e.text ∧ e.text ≠ []) :
    replaceLines (cs.filterMap fun c => c.hunk.edit?) (passed ++ a.map Entry.text)
      = passed ++ b.map Entry.text := by
  obtain ⟨puts, hputs, hstand, hresult⟩ := h.exists_putLines passed hpassed hw
  have hfull : ∀ l ∈ b.map Entry.text, '\n' ∉ l ∧ l ≠ [] := by simpa using hlines
  rw [← hputs, replaceLines_map_fst, hresult]
  intro x hx
  obtain ⟨hfor, hmem⟩ := hstand x hx
  have hnew := newLines_joinWith x.1.startLine x.1.endLine (fun l hl => (hfull l (hmem l hl)).1)
    (fun l hl => (hfull l (hmem l hl)).2)
  rwa [hfor.text] at hnew

/-! ## Texts -/

/-- **The edits of a diff rebuild the new text.** They lie within the old text, one behind the other
with lines between them, and replacing their ranges gives the new lines. -/
theorem replaceLines_createDiff (before after oldName newName : Text) (context : Nat)
    (hne : before ≠ after) (ho : '\n' ∉ oldName) (hn : '\n' ∉ newName)
    (hfull : ∀ l ∈ (Document.ofText after).lines, l ≠ []) :
    ∃ edits, diffEdits? (createDiff before after oldName newName context) = some edits ∧
      (∀ e ∈ edits, 0 ≤ e.startLine ∧ e.startLine ≤ e.endLine ∧
        e.endLine ≤ (Document.ofText before).lines.length) ∧
      edits.Pairwise (fun e f => e.endLine < f.startLine) ∧
      replaceLines edits (Document.ofText before).lines = (Document.ofText after).lines := by
  have htiling := clustersBetween_tiling before after context
  have hw : ∀ c ∈ clustersBetween before after context, c.hunk.WellFormed :=
    fun c hc => hunk_wellFormed_of_mem_clustersBetween before after context hc
  have hedits : diffEdits? (createDiff before after oldName newName context)
      = some ((clustersBetween before after context).filterMap fun c => c.hunk.edit?) := by
    rw [diffEdits?, read?_createDiff context hne ho hn, Option.map_some, Patch.edits,
      List.filterMap_map]
    rfl
  refine ⟨_, hedits, ?_, ?_, ?_⟩
  · intro e he
    obtain ⟨c, hc, he⟩ := List.mem_filterMap.mp he
    have hbounds := Cluster.bounds_of_edit? (hw c hc) he
    have hend := htiling.end_le c hc
    have hlength : (Document.ofText before).entries.length = (Document.ofText before).lines.length := by
      rw [← Document.map_text_entries, List.length_map]
    omega
  · have hapart : (clustersBetween before after context).Pairwise Cluster.Apart := clusters_apart _ _
    refine List.pairwise_filterMap.mpr (hapart.imp_of_mem ?_)
    intro c d hc hd hcd e he f hf
    have hleft := Cluster.bounds_of_edit? (hw c hc) he
    have hright := Cluster.bounds_of_edit? (hw d hd) hf
    rw [Cluster.Apart] at hcd
    omega
  · have hlines := htiling.replaceLines_edits [] rfl hw fun e he =>
      ⟨Document.newline_not_mem_entries he, hfull _ (by
        rw [← Document.map_text_entries]
        exact List.mem_map_of_mem he)⟩
    simpa using hlines

/-- A line is added at the front, one is replaced, and the last one is lost. -/
theorem replaceLines_createDiff_letters :
    let before := "a\nb\nc\nd\ne".toList
    let after := "x\na\nb\ny\nd\n".toList
    before ≠ after ∧ (∀ l ∈ (Document.ofText after).lines, l ≠ []) ∧
      ∃ edits, diffEdits? (createDiff before after defaultOldName defaultNewName 0) = some edits ∧
        edits.Pairwise (fun e f => e.endLine < f.startLine) ∧
        replaceLines edits (["a", "b", "c", "d", "e"].map String.toList)
          = ["x", "a", "b", "y", "d"].map String.toList := by
  intro before after
  have hne : before ≠ after := by decide
  have hfull : ∀ l ∈ (Document.ofText after).lines, l ≠ [] := by decide
  obtain ⟨edits, hedits, -, hpairs, hlines⟩ :=
    replaceLines_createDiff before after defaultOldName defaultNewName 0 hne (by decide) (by decide)
      hfull
  exact ⟨hne, hfull, edits, hedits, hpairs, hlines⟩

end PatchLint
