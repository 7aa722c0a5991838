import Mathlib.Data.List.Chain
import Mathlib.Logic.Relation
import PatchLint.Proofs.Fix.KeptRun
import PatchLint.Proofs.Fix.LineOffsets
import PatchLint.Proofs.Text.Decoding

/-!
# Lines cut out of bytes

A kept fix deletes a line of a text. Seen from the bytes of the text, this is a cut between two newlines
(`CutsLine`), and a run of fixes is a sequence of such cuts (`linesCut_fixAll`): all other bytes stay as
they are and where they are among each other. Cuts bring in no byte (`LinesCut.sublist`), and no two bytes
become neighbours that were none (`LinesCut.isChain`).
-/

namespace PatchLint

variable {parser : Parser} {c : RuleConfig} {language : Language}

/-- Whether a line is cut out of bytes: with the newline behind it or, if there is none, with the newline
in front of it. -/
def CutsLine (before after : List UInt8) : Prop :=
  ∃ front line : List UInt8, (front = [] ∨ front.getLast? = some 0x0A) ∧ 0x0A ∉ line ∧
    ((∃ rest, before = front ++ line ++ 0x0A :: rest ∧ after = front ++ rest) ∨
      (before = front ++ line ∧ after = front.dropLast))

/-- Whether lines are cut out of bytes, one after another, any number of them. -/
def LinesCut (before after : List UInt8) : Prop := Relation.ReflTransGen CutsLine before after

theorem LinesCut.refl (bytes : List UInt8) : LinesCut bytes bytes := Relation.ReflTransGen.refl

/-! ## What cuts leave -/

theorem CutsLine.sublist {before after : List UInt8} (h : CutsLine before after) :
    after.Sublist before := by
  obtain ⟨front, line, -, -, ⟨rest, rfl, rfl⟩ | ⟨rfl, rfl⟩⟩ := h
  · rw [List.append_assoc]
    exact ((List.sublist_cons_self _ rest).trans (List.sublist_append_right line _)).append_left front
  · exact (List.dropLast_sublist front).trans (List.sublist_append_left front line)

theorem LinesCut.sublist {before after : List UInt8} (h : LinesCut before after) :
    after.Sublist before := by
  induction h with
  | refl => exact List.Sublist.refl _
  | tail _ hcut ih => exact hcut.sublist.trans ih

/-- Where a line was, the newline in front of it meets what followed the newline behind it. -/
theorem CutsLine.isChain {R : UInt8 → UInt8 → Prop} {before after : List UInt8}
    (h : CutsLine before after) (hchain : before.IsChain R) : after.IsChain R := by
  obtain ⟨front, line, hfront, -, ⟨rest, rfl, rfl⟩ | ⟨rfl, rfl⟩⟩ := h
  · have hend : (0x0A :: rest).IsChain R := hchain.right_of_append
    refine hchain.left_of_append.left_of_append.append hend.tail fun x hx y hy => ?_
    rcases hfront with rfl | hlast
    · cases hx
    · obtain rfl : 0x0A = x := Option.some.inj (hlast.symm.trans hx)
      exact hend.rel_head? hy
  · exact hchain.left_of_append.dropLast

/-- **Neighbours after the cuts were neighbours before.** -/
theorem LinesCut.isChain {R : UInt8 → UInt8 → Prop} {before after : List UInt8}
    (h : LinesCut before after) (hchain : before.IsChain R) : after.IsChain R := by
  induction h with
  | refl => exact hchain
  | tail _ hcut ih => exact hcut.isChain ih

/-! ## Fixes -/

theorem lineBytes_ended (lines : List Text) :
    lineBytes lines = [] ∨ (lineBytes lines).getLast? = some 0x0A := by
  rcases List.eq_nil_or_concat lines with rfl | ⟨others, last, rfl⟩
  · exact Or.inl rfl
  · refine Or.inr ?_
    rw [List.concat_eq_append, lineBytes, List.flatMap_append, List.flatMap_singleton,
      ← List.append_assoc, Utf8.encode_append _ ['\n']]
    exact List.getLast?_concat

/-- **Deleting a line cuts it out of the bytes.** -/
theorem DeletesLine.cutsLine {index : Nat} {before after : Text}
    (h : DeletesLine index before after) : CutsLine (Utf8.encode before) (Utf8.encode after) := by
  obtain ⟨line, hline, hcut⟩ := h.exists_lineBytes
  have hnewline : 0x0A ∉ Utf8.encode line := fun hmem =>
    Document.newline_not_mem_lines (List.mem_of_getElem? hline)
      ((Utf8.byte_mem_encode_iff (c := '\n') (by decide)).mp hmem)
  exact ⟨_, _, lineBytes_ended _, hnewline, hcut⟩

theorem KeptRun.linesCut {d last : Draft} {as : List Attempt}
    (h : KeptRun parser c language d as last) :
    LinesCut (Utf8.encode d.text) (Utf8.encode last.text) := by
  induction h with
  | done d => exact LinesCut.refl _
  | step hfix _ ih =>
    obtain ⟨index, -, hdelete⟩ := hfix.deletesLine
    exact Relation.ReflTransGen.head hdelete.cutsLine ih

/-- **Fixing cuts lines out of the bytes of a source.** -/
theorem linesCut_fixAll (parser : Parser) (c : RuleConfig) (language : Language) (source : Text) :
    LinesCut (Utf8.encode source) (Utf8.encode (fixAll parser c language source)) :=
  (keptRun_fixRun parser c language source).linesCut

end PatchLint
