import PatchLint.Fix.Removal
import PatchLint.Proofs.Diff.Document
import PatchLint.Proofs.Diff.PatchRoundtrip
import PatchLint.Proofs.Diff.Placement

/-!
# Removing a line

The fix for an unused import is a diff that deletes one line. Whatever this line holds, the diff is
read as the one hunk it is meant to be: while the hunk is owed its line, the line is taken neither for
a header nor for a file name.

* `DeletesLine` — what is left of a text without one of its lines
* `DeletesLine.length_lt`, `DeletesLine.lines_sublist` — the text gets shorter, the other lines stay
* `read?_removalDiff` — the diff is read as one hunk
* `applyDiff?_removalDiff` — it applies exactly if the line is one of the document
* `exists_deletesLine_of_fix` — a fix that applies deletes the line on which its finding starts
-/

namespace PatchLint

/-! ## Deleting a line -/

/-- Whether `after` is what is left of `before` when the line of this index is deleted. -/
def DeletesLine (index : Nat) (before after : Text) : Prop :=
  index < (Document.ofText before).lines.length ∧
    after = Document.toText
      { Document.ofText before with lines := (Document.ofText before).lines.eraseIdx index }

/-- What the text of some lines loses with one of them: the newline behind the line too or, if there is
none, the newline in front of it. -/
theorem Document.toText_delete (front back : List Text) (line : Text) (ended : Bool) :
    (∃ rest,
      toText ⟨front ++ line :: back, ended⟩
        = front.flatMap (· ++ ['\n']) ++ line ++ '\n' :: rest ∧
      toText ⟨front ++ back, ended⟩ = front.flatMap (· ++ ['\n']) ++ rest) ∨
    (toText ⟨front ++ line :: back, ended⟩ = front.flatMap (· ++ ['\n']) ++ line ∧
      toText ⟨front ++ back, ended⟩ = (front.flatMap (· ++ ['\n'])).dropLast) := by
  have hfront := toText_append front ended (List.cons_ne_nil line back)
  cases back with
  | cons m back =>
    have hback := List.cons_ne_nil m back
    have hline := toText_append [line] ended hback
    rw [List.singleton_append, List.flatMap_singleton] at hline
    refine Or.inl ⟨toText ⟨m :: back, ended⟩, ?_, toText_append front ended hback⟩
    rw [hfront, hline]
    simp only [List.append_assoc, List.singleton_append]
  | nil =>
    rw [List.append_nil]
    cases ended with
    | true =>
      refine Or.inl ⟨[], ?_, ?_⟩
      · rw [hfront, toText_ended, List.flatMap_singleton, List.append_assoc]
      · rw [toText_ended, List.append_nil]
    | false =>
      have hone (l : Text) : toText ⟨[l], false⟩ = l := List.append_nil l
      refine Or.inr ⟨by rw [hfront, hone], ?_⟩
      rcases List.eq_nil_or_concat front with rfl | ⟨others, last, rfl⟩
      · rfl
      · rw [List.concat_eq_append, toText_append others false (List.cons_ne_nil last []), hone,
          List.flatMap_append, List.flatMap_singleton, ← List.append_assoc, List.dropLast_concat]

namespace DeletesLine

variable {index : Nat} {before after : Text}

/-- **Deleting a line as a cut in the text.** The line is cut out with the newline behind it, or, if it
is the last line and not ended, with the newline in front of it. -/
theorem exists_cut (h : DeletesLine index before after) :
    ∃ line, (Document.ofText before).lines[index]? = some line ∧
      let front := ((Document.ofText before).lines.take index).flatMap (· ++ ['\n'])
      (∃ rest, before = front ++ line ++ '\n' :: rest ∧ after = front ++ rest) ∨
        (before = front ++ line ∧ after = front.dropLast) := by
  obtain ⟨hlt, rfl⟩ := h
  refine ⟨_, List.getElem?_eq_getElem hlt, ?_⟩
  have hlines : (Document.ofText before).lines.take index
      ++ (Document.ofText before).lines[index] :: (Document.ofText before).lines.drop (index + 1)
      = (Document.ofText before).lines := by
    rw [← List.drop_eq_getElem_cons hlt, List.take_append_drop]
  have hcut := Document.toText_delete ((Document.ofText before).lines.take index)
    ((Document.ofText before).lines.drop (index + 1)) (Document.ofText before).lines[index]
    (Document.ofText before).ended
  rwa [hlines, Document.toText_ofText, ← List.eraseIdx_eq_take_drop_succ] at hcut

/-- **Deleting a line makes the text shorter.** -/
theorem length_lt (h : DeletesLine index before after) : after.length < before.length := by
  have hne : before ≠ [] := by
    rintro rfl
    exact absurd h.1 (Nat.not_lt_zero index)
  obtain ⟨line, -, ⟨rest, hbefore, hafter⟩ | ⟨hbefore, hafter⟩⟩ := h.exists_cut
  · have hlength := congrArg List.length hbefore
    simp only [List.length_append, List.length_cons] at hlength
    rw [hafter, List.length_append]
    omega
  · -- without a newline in front of it the line itself is not empty
    have hpos := List.length_pos_iff.mpr hne
    have hlength := congrArg List.length hbefore
    rw [List.length_append] at hlength
    rw [hafter, List.length_dropLast]
    omega

/-- **Deleting a line leaves the other lines.** -/
theorem lines_sublist (h : DeletesLine index before after) :
    (Document.ofText after).lines.Sublist (Document.ofText before).lines := by
  obtain ⟨-, rfl⟩ := h
  have hsub := List.eraseIdx_sublist (Document.ofText before).lines index
  refine (Document.lines_ofText_toText_sublist _ fun l hl => ?_).trans hsub
  exact Document.newline_not_mem_lines (hsub.subset hl)

end DeletesLine

/-! ## The diff that deletes a line -/

/-- The hunk that deletes a line. -/
def removalHunk (number : Nat) (line : Text) : Hunk := ⟨number, 1, number, 0, ['-' :: line]⟩

theorem wellFormed_removalHunk (number : Nat) {line : Text} (h : '\n' ∉ line) :
    (removalHunk number line).WellFormed where
  known l hl := by
    rw [List.mem_singleton.mp hl]
    exact Tag.noConfusion
  oneLine l hl := by
    rw [List.mem_singleton.mp hl]
    simpa using h
  oldCount := rfl
  newCount := rfl

theorem sides?_removalHunk (number : Nat) {line : Text} (h : '\n' ∉ line) :
    (removalHunk number line).sides? = some ⟨[line], [], false, false, false⟩ := by
  rw [Hunk.sides?, (wellFormed_removalHunk number h).body_eq]
  rfl

/-- The header of the diff that deletes a line. -/
def removalHeader (number : Nat) : Text :=
  "@@ -".toList ++ Text.ofNat number ++ ",1 +".toList ++ Text.ofNat number ++ ",0 @@".toList

theorem headerSpelled_removalHeader (number : Nat) (line : Text) :
    (removalHunk number line).HeaderSpelled (removalHeader number) := by
  have hdigit (d : Nat) (hd : d < 10) : Text.ofNat d = [Text.digitChar d] := by
    rw [Text.ofNat, if_pos hd]
  have hspelled : (removalHunk number line).HeaderSpelled _ := .ranges (.full 1) (.full 0)
  rw [hdigit 1 (by decide), hdigit 0 (by decide)] at hspelled
  have heq : removalHeader number
      = "@@ -".toList ++ (Text.ofNat number ++ [',', Text.digitChar 1]) ++ " +".toList
        ++ (Text.ofNat number ++ [',', Text.digitChar 0]) ++ " @@".toList := by
    show "@@ -".toList ++ Text.ofNat number ++ ",1 +".toList ++ Text.ofNat number
      ++ ",0 @@".toList = _
    simp only [List.append_assoc]
    rfl
  rw [heq]
  exact hspelled

/-- The diff that deletes a line as a patch. -/
def removalPatch (number : Nat) (line : Text) : Patch :=
  ⟨defaultOldName, defaultNewName, [removalHunk number line]⟩

theorem wellFormed_of_mem_removalPatch (number : Nat) {line : Text} (h : '\n' ∉ line) :
    ∀ hunk ∈ (removalPatch number line).hunks, hunk.WellFormed := by
  intro hunk hhunk
  rw [List.mem_singleton.mp hhunk]
  exact wellFormed_removalHunk number h

theorem exists_spelled_removalDiff (number : Nat) {line : Text} (h : '\n' ∉ line) :
    ∃ lines, (removalPatch number line).Spelled lines ∧ diffLines (removalDiff number line) = lines := by
  have hspelled : (removalPatch number line).Spelled
      ["--- ".toList ++ defaultOldName, "+++ ".toList ++ defaultNewName, removalHeader number,
        '-' :: line] :=
    .lines (.cons (headerSpelled_removalHeader number line) .nil)
  have honame : '\n' ∉ defaultOldName := by decide
  have hnname : '\n' ∉ defaultNewName := by decide
  exact ⟨_, hspelled, diffLines_flatMap_ended
    (hspelled.newline_not_mem honame hnname (wellFormed_of_mem_removalPatch number h))⟩

/-- **The diff that deletes a line is read as its one hunk,** whatever the line looks like. -/
theorem read?_removalDiff (number : Nat) {line : Text} (h : '\n' ∉ line) :
    Patch.read? (removalDiff number line) = some (removalPatch number line) := by
  obtain ⟨lines, hspelled, hlines⟩ := exists_spelled_removalDiff number h
  have hold : Text.strip defaultOldName = defaultOldName := by decide
  have hnew : Text.strip defaultNewName = defaultNewName := by decide
  rw [hspelled.read?_eq hlines (List.cons_ne_nil _ _) (wellFormed_of_mem_removalPatch number h)]
  simp only [removalPatch, hold, hnew]

/-- One line fits where it stands. -/
theorem fitsAt_singleton {lines : List Text} {line : Text} {index : Nat} :
    fitsAt lines [line] 0 index = true ↔ lines[index]? = some line := by
  rw [fitsAt_iff]
  constructor
  · rintro ⟨front, back, rfl, hlen, -⟩
    obtain rfl : front.length = index := Int.ofNat.inj hlen
    rw [List.append_assoc, List.getElem?_append_right (Nat.le_refl _), Nat.sub_self]
    rfl
  · intro hline
    obtain ⟨hlt, hget⟩ := List.getElem?_eq_some_iff.mp hline
    refine ⟨lines.take index, lines.drop (index + 1), ?_, ?_, Nat.zero_le _⟩
    · rw [← hget, List.append_assoc, List.singleton_append, ← List.drop_eq_getElem_cons hlt,
        List.take_append_drop]
    · rw [List.length_take_of_le (Nat.le_of_lt hlt)]

/-- **The hunk that deletes a line has to find it at its own place,** as it shows no other line. -/
theorem locate_singleton (lines : List Text) (line : Text) (index : Nat) :
    locate lines [line] index 0 false
      = if lines[index]? = some line then some index else none := by
  by_cases hline : lines[index]? = some line
  · rw [if_pos hline, locate_expected false (fitsAt_singleton.mpr hline), Int.toNat_natCast]
  · have hfits : ¬fitsAt lines [line] 0 index = true := fun hf => hline (fitsAt_singleton.mp hf)
    rw [if_neg hline, locate, if_neg hfits]
    exact ite_self none

/-- **The diff for a piece of a text applies exactly if the piece is a line of the document.** The
empty piece behind the last newline is none. -/
theorem applyDiff?_removalDiff {t line : Text} {index : Nat}
    (h : (Text.pieces '\n' t)[index]? = some line) :
    applyDiff? t (removalDiff (index + 1) line)
      = if index < (Document.ofText t).lines.length then
          some (Document.toText
            { Document.ofText t with lines := (Document.ofText t).lines.eraseIdx index })
        else none := by
  have hnewline : '\n' ∉ line := Text.not_mem_of_mem_pieces (List.mem_of_getElem? h)
  have hline : (Document.ofText t).lines[index]? = some line
      ↔ index < (Document.ofText t).lines.length := by
    constructor
    · intro hget
      exact (List.getElem?_eq_some_iff.mp hget).1
    · intro hlt
      obtain ⟨rest, hrest⟩ := Document.lines_prefix_pieces t
      rw [← h, ← hrest, List.getElem?_append_left hlt]
  have hanchor : (removalHunk (index + 1) line).anchor ⟨[line], [], false, false, false⟩ + 0
      = (index : Int) := by
    show ((index + 1 : Nat) : Int) - 1 + 0 = index
    omega
  rw [applyDiff?, applyDiff, read?_removalDiff (index + 1) hnewline]
  dsimp only
  rw [Patch.apply, removalPatch, Progress.applyAll, Progress.apply,
    sides?_removalHunk (index + 1) hnewline]
  dsimp only
  rw [hanchor, locate_singleton]
  by_cases hlt : index < (Document.ofText t).lines.length
  · rw [if_pos (hline.mpr hlt), if_pos hlt, List.eraseIdx_eq_take_drop_succ]
    show some (Document.toText ⟨splice _ _ _ _, _⟩) = _
    rw [splice, List.append_nil]
    rfl
  · rw [if_neg fun hget => hlt (hline.mp hget), if_neg hlt]
    rfl

/-! ## Fixes -/

/-- What a fix is: the diff that deletes the line on which the finding starts. -/
theorem fixFor?_eq_some {t diff : Text} {d : Diagnostic} (h : fixFor? t d = some diff) :
    ∃ index line, lineIndex? (Text.pieces '\n' t) d.start = some index ∧
      (Text.pieces '\n' t)[index]? = some line ∧ diff = removalDiff (index + 1) line := by
  unfold fixFor? at h
  split at h
  · unfold removeImport? at h
    split at h
    · dsimp only at h
      split at h
      · cases h
      · next index hindex =>
        obtain ⟨line, hline, rfl⟩ := Option.map_eq_some_iff.mp h
        exact ⟨index, line, hindex, hline, rfl⟩
    · cases h
  · cases h

/-- **A fix that applies deletes the line on which its finding starts.** -/
theorem exists_deletesLine_of_fix {t after : Text} {d : Diagnostic}
    (h : (fixFor? t d).bind (applyDiff? t) = some after) :
    ∃ index, lineIndex? (Text.pieces '\n' t) d.start = some index ∧ DeletesLine index t after := by
  obtain ⟨diff, hdiff, happly⟩ := Option.bind_eq_some_iff.mp h
  obtain ⟨index, line, hindex, hline, rfl⟩ := fixFor?_eq_some hdiff
  rw [applyDiff?_removalDiff hline] at happly
  by_cases hlt : index < (Document.ofText t).lines.length
  · rw [if_pos hlt] at happly
    exact ⟨index, hindex, hlt, (Option.some.inj happly).symm⟩
  · rw [if_neg hlt] at happly
    cases happly

end PatchLint
