import Mathlib.Data.List.Forall2
import PatchLint.Proofs.Diff.Edits

/-!
# Diffs with equal edits

The new text of an edit is joined from the lines that the edit stands for. If the diffs from one text to two
others have equal edits, both texts are made from it by putting lines at the same places, and at each
place these are equal lines, with one exception. Where lines are replaced by nothing and where they are
replaced by one empty line, the edit is the same.

* `exists_putLines_createDiff` — the lines that the edits of a diff stand for lead to the new text
* `Alike` — lines at equal edits that the edits do not tell apart
* `forall₂_alike` — equal edits stand for lines that are alike
* `alike_of_diffEdits?_eq` — so two diffs with equal edits lead to the same lines if no edit with the empty
  text replaces lines; `not_lines_eq_of_diffEdits?_eq` shows that this cannot be dropped
-/

namespace PatchLint

/-! ## The lines that edits stand for -/

/-- **The edits of a diff stand for lines that lead to the new text.** -/
theorem exists_putLines_createDiff (before after oldName newName : Text) (context : Nat)
    (hne : before ≠ after) (ho : '\n' ∉ oldName) (hn : '\n' ∉ newName) :
    ∃ puts, diffEdits? (createDiff before after oldName newName context) = some (puts.map Prod.fst) ∧
      (∀ x ∈ puts, x.1.StandsFor x.2 ∧ ∀ l ∈ x.2, '\n' ∉ l) ∧
      putLines puts (Document.ofText before).lines = (Document.ofText after).lines := by
  obtain ⟨puts, hputs, hstand, hresult⟩ := (clustersBetween_tiling before after context).exists_putLines
    [] rfl fun c hc => hunk_wellFormed_of_mem_clustersBetween before after context hc
  rw [Document.map_text_entries] at hstand
  refine ⟨puts, ?_, fun x hx => ⟨(hstand x hx).1, fun l hl => ?_⟩, by simpa using hresult⟩
  · rw [hputs, diffEdits?, read?_createDiff context hne ho hn, Option.map_some, Patch.edits,
      List.filterMap_map]
    rfl
  · exact Document.newline_not_mem_lines ((hstand x hx).2 l hl)

/-- Lines at equal edits that the edits do not tell apart: equal ones, or nothing and one empty line in the
place of other lines. -/
structure Alike (x y : TextEdit × List Text) : Prop where
  edit : x.1 = y.1
  lines : x.2 = y.2 ∨ x.1.newText = [] ∧ x.1.startLine < x.1.endLine ∧
    (x.2 = [] ∧ y.2 = [[]] ∨ x.2 = [[]] ∧ y.2 = [])

theorem alike_of_standsFor {x y : TextEdit × List Text} (hedit : x.1 = y.1)
    (hx : x.1.StandsFor x.2 ∧ ∀ l ∈ x.2, '\n' ∉ l) (hy : y.1.StandsFor y.2 ∧ ∀ l ∈ y.2, '\n' ∉ l) :
    Alike x y := by
  refine ⟨hedit, ?_⟩
  have htext : Text.joinWith ['\n'] x.2 = Text.joinWith ['\n'] y.2 := by
    rw [hx.1.text, hedit, hy.1.text]
  rcases Text.eq_or_of_joinWith_eq hx.2 hy.2 htext with heq | ⟨hempty, hlines⟩
  · exact Or.inl heq
  · refine Or.inr ⟨hx.1.text.symm.trans hempty, ?_, hlines⟩
    -- one of the two edits adds nothing, so it replaces something
    have hrange : x.1.startLine ≠ x.1.endLine := by
      rcases hlines with ⟨hnone, -⟩ | ⟨-, hnone⟩
      · exact fun he => hx.1.changes he hnone
      · rw [hedit]
        exact fun he => hy.1.changes he hnone
    exact Int.lt_iff_le_and_ne.mpr ⟨hx.1.range, hrange⟩

/-- **Equal edits stand for lines that are alike.** -/
theorem forall₂_alike {puts₁ puts₂ : List (TextEdit × List Text)}
    (hedits : puts₁.map Prod.fst = puts₂.map Prod.fst)
    (h₁ : ∀ x ∈ puts₁, x.1.StandsFor x.2 ∧ ∀ l ∈ x.2, '\n' ∉ l)
    (h₂ : ∀ x ∈ puts₂, x.1.StandsFor x.2 ∧ ∀ l ∈ x.2, '\n' ∉ l) :
    List.Forall₂ Alike puts₁ puts₂ := by
  induction puts₁ generalizing puts₂ with
  | nil =>
    obtain rfl := List.map_eq_nil_iff.mp hedits.symm
    exact List.Forall₂.nil
  | cons x puts₁ ih =>
    obtain ⟨y, puts₂, rfl, hedit, hrest⟩ := List.map_eq_cons_iff.mp hedits.symm
    rw [List.forall_mem_cons] at h₁ h₂
    exact List.Forall₂.cons (alike_of_standsFor hedit.symm h₁.1 h₂.1) (ih hrest.symm h₁.2 h₂.2)

/-- Lines that are alike are equal unless an edit with the empty text replaces lines. -/
theorem eq_of_forall₂_alike {puts₁ puts₂ : List (TextEdit × List Text)}
    (h : List.Forall₂ Alike puts₁ puts₂)
    (hfull : ∀ x ∈ puts₁, x.1.newText = [] → x.1.startLine = x.1.endLine) : puts₁ = puts₂ := by
  induction h with
  | nil => rfl
  | @cons x y puts₁ puts₂ hxy hrest ih =>
    rw [List.forall_mem_cons] at hfull
    have hlines : x.2 = y.2 := by
      rcases hxy.lines with heq | ⟨hempty, hrange, -⟩
      · exact heq
      · exact absurd (hfull.1 hempty) (Int.ne_of_lt hrange)
    rw [Prod.ext hxy.edit hlines, ih hfull.2]

/-! ## Texts -/

/-- **Two diffs with equal edits put the same lines at the same places, up to a blank line.** If no edit with
the empty text replaces lines, the two new texts have the same lines. -/
theorem alike_of_diffEdits?_eq {before after₁ after₂ oldName newName : Text} {context : Nat}
    (hne₁ : before ≠ after₁) (hne₂ : before ≠ after₂) (ho : '\n' ∉ oldName) (hn : '\n' ∉ newName)
    (heq : diffEdits? (createDiff before after₁ oldName newName context)
      = diffEdits? (createDiff before after₂ oldName newName context)) :
    ∃ puts₁ puts₂, diffEdits? (createDiff before after₁ oldName newName context)
        = some (puts₁.map Prod.fst) ∧
      List.Forall₂ Alike puts₁ puts₂ ∧
      putLines puts₁ (Document.ofText before).lines = (Document.ofText after₁).lines ∧
      putLines puts₂ (Document.ofText before).lines = (Document.ofText after₂).lines ∧
      ((∀ x ∈ puts₁, x.1.newText = [] → x.1.startLine = x.1.endLine) →
        (Document.ofText after₁).lines = (Document.ofText after₂).lines) := by
  obtain ⟨puts₁, hedits₁, hstand₁, hresult₁⟩ :=
    exists_putLines_createDiff before after₁ oldName newName context hne₁ ho hn
  obtain ⟨puts₂, hedits₂, hstand₂, hresult₂⟩ :=
    exists_putLines_createDiff before after₂ oldName newName context hne₂ ho hn
  have hedits : puts₁.map Prod.fst = puts₂.map Prod.fst :=
    Option.some.inj (hedits₁.symm.trans (heq.trans hedits₂))
  have halike := forall₂_alike hedits hstand₁ hstand₂
  refine ⟨puts₁, puts₂, hedits₁, halike, hresult₁, hresult₂, fun hfull => ?_⟩
  rw [← hresult₁, ← hresult₂, eq_of_forall₂_alike halike hfull]

/-- The line `b` is replaced, once with a newline at the end of the text and once without one. -/
theorem alike_of_diffEdits?_eq_ends :
    let before := "a\nb\n".toList
    let diff := fun after => createDiff before after defaultOldName defaultNewName 3
    before ≠ "a\nc\n".toList ∧ before ≠ "a\nc".toList ∧
      diffEdits? (diff "a\nc\n".toList) = diffEdits? (diff "a\nc".toList) ∧
      diffEdits? (diff "a\nc\n".toList) = some [⟨1, 2, ['c']⟩] ∧
      (Document.ofText "a\nc\n".toList).lines = (Document.ofText "a\nc".toList).lines := by
  intro before diff
  have hne₁ : before ≠ "a\nc\n".toList := by decide
  have hne₂ : before ≠ "a\nc".toList := by decide
  have hedits : diffEdits? (diff "a\nc\n".toList) = some [⟨1, 2, ['c']⟩] := by decide +kernel
  have heq : diffEdits? (diff "a\nc\n".toList) = diffEdits? (diff "a\nc".toList) := by decide +kernel
  obtain ⟨puts, -, hputs, -, -, -, hlines⟩ :=
    alike_of_diffEdits?_eq hne₁ hne₂ (by decide) (by decide) heq
  refine ⟨hne₁, hne₂, heq, hedits, hlines fun x hx hempty => ?_⟩
  have hmem : x.1 ∈ puts.map Prod.fst := List.mem_map_of_mem hx
  rw [← Option.some.inj (hedits.symm.trans hputs), List.mem_singleton] at hmem
  rw [hmem] at hempty
  exact absurd hempty (by decide)

/-- **Edits need not determine the lines.** The first line is deleted in one diff and emptied in the other,
and the edit of both replaces it by the empty text. -/
theorem not_lines_eq_of_diffEdits?_eq :
    ¬∀ before after₁ after₂ : Text, before ≠ after₁ → before ≠ after₂ →
      diffEdits? (createDiff before after₁ defaultOldName defaultNewName 3)
        = diffEdits? (createDiff before after₂ defaultOldName defaultNewName 3) →
      (Document.ofText after₁).lines = (Document.ofText after₂).lines := by
  intro hall
  have hlines := hall "a\nb\n".toList "b\n".toList "\nb\n".toList (by decide) (by decide)
    (by decide +kernel)
  exact absurd hlines (by decide)

end PatchLint
