import Mathlib.Data.List.DropRight
import PatchLint.Proofs.Text.Newlines
import PatchLint.Report.Format

/-!
# The character under the caret

In the bytes of a text, the place of an offset at which a character starts is that of the character:
its line counts the newlines in front of it, and its column the characters behind the last of them. The
line that is shown with a finding is cut out of the bytes on another way, and loses the carriage returns
at its end. It has the character at the column that is reported, so the caret stands below it.

* `ofOffset_encode` — the place of a character
* `getElem?_trimEnd` — trimming the end of a line keeps what is in front of the trimmed run
* `sourceLine_locateIn` — the line that is shown with a finding
* `place_and_caret` — the place of a finding and the character under its caret
-/

namespace PatchLint

/-- **The place of a character.** -/
theorem ofOffset_encode (front back : Text) :
    Location.ofOffset (Utf8.encode (front ++ back)) (Utf8.encode front).length
      = ⟨front.count '\n' + 1, (Text.lastLine front).length + 1⟩ := by
  have hfront : Location.front (Utf8.encode (front ++ back)) (Utf8.encode front).length
      = Utf8.encode front := by
    unfold Location.front
    rw [Int.toNat_natCast, Utf8.encode_append, List.take_left]
  unfold Location.ofOffset
  dsimp only
  rw [hfront, count_newlineByte_encode, lastLine_encode, Utf8.decodeLossy_encode]

/-! ## Trimmed lines -/

/-- **Trimming the end keeps the front**, and the character behind the front, if not all that follows
is trimmed. -/
theorem getElem?_trimEnd {p : Char → Bool} {front back : Text} (h : ¬∀ c ∈ back, p c = true) :
    (Text.trimEnd p (front ++ back))[front.length]? = back[0]? := by
  induction back using List.reverseRecOn with
  | nil => exact absurd (fun c hc => absurd hc List.not_mem_nil) h
  | append_singleton back c ih =>
    rw [← List.append_assoc]
    by_cases hc : p c = true
    · -- the last character is cut off, and it is not the only one
      have htrim : Text.trimEnd p (front ++ back ++ [c]) = Text.trimEnd p (front ++ back) :=
        List.rdropWhile_concat_pos p _ c hc
      have hback : ¬∀ x ∈ back, p x = true := by
        intro hall
        refine h fun x hx => ?_
        rcases List.mem_append.mp hx with hx | hx
        · exact hall x hx
        · rwa [List.mem_singleton.mp hx]
      rw [htrim, ih hback]
      cases back with
      | nil => exact absurd (fun x hx => absurd hx List.not_mem_nil) hback
      | cons x back => rfl
    · have htrim : Text.trimEnd p (front ++ back ++ [c]) = front ++ back ++ [c] :=
        List.rdropWhile_concat_neg p _ c hc
      rw [htrim, List.append_assoc, List.getElem?_append_right (Nat.le_refl _), Nat.sub_self]

/-! ## Findings -/

/-- Whether nothing but carriage returns stands between an index and the end of its line. -/
def Text.InLineEnd (t : Text) (k : Nat) : Prop :=
  ∀ c ∈ (t.drop k).takeWhile (· ≠ '\n'), c = '\r'

instance (t : Text) (k : Nat) : Decidable (t.InLineEnd k) :=
  decidable_of_iff (((t.drop k).takeWhile (· ≠ '\n')).all (· = '\r') = true) (by
    simp only [List.all_eq_true, decide_eq_true_eq, Text.InLineEnd])

/-- The line that is shown with a finding, from its parts in front of the finding and behind it. -/
theorem sourceLine_locateIn {front : Text} {d : Diagnostic}
    (hstart : d.start = (Utf8.encode front).length) (back : Text) (file : String) :
    (locateIn file (Utf8.encode (front ++ back)) d).sourceLine
      = some (Text.trimEnd (· = '\r') (Text.lastLine front ++ back.takeWhile (· ≠ '\n'))) := by
  unfold locateIn
  dsimp only
  rw [hstart, ofOffset_encode, sourceLine?_encode, Text.getElem?_pieces_append]
  rfl

/-- The text that is shown with a finding: the source line, and below it the caret, both indented. -/
theorem textLines_of_sourceLine {d : FileDiagnostic} {line : Text} {column : Nat}
    (hline : d.sourceLine = some line) (hcolumn : d.place.column = (column + 1 : Nat)) :
    ∃ label shown caret, d.textLines true = [label, shown, caret, ""] ∧
      shown.toList = List.replicate 4 ' ' ++ line ∧
      caret.toList = List.replicate (4 + column) ' ' ++ ['^'] := by
  unfold FileDiagnostic.textLines
  rw [hline, hcolumn]
  refine ⟨_, _, _, rfl, ?_, ?_⟩
  · simp only [String.toList_append, String.toList_ofList]
    rfl
  · have hwidth : (((column + 1 : Nat) : Int) - 1).toNat = column := by omega
    simp only [hwidth, String.toList_append, String.toList_ofList, List.replicate_add]
    rfl

/-- **The place of a finding, and the character under its caret.** Let a finding start with the
character at an index of a text. Its line is one more than the newlines in front of the character, and
its column one more than the characters behind the last of them. Unless the character is a newline or
belongs to the carriage returns at the end of its line, the source line has it at the column, and in the
printed finding it stands right above the caret. -/
theorem place_and_caret (t : Text) (k : Nat) :
    let offset : Int := (Utf8.encode (t.take k)).length
    let column := (Text.lastLine (t.take k)).length
    Location.ofOffset (Utf8.encode t) offset = ⟨(t.take k).count '\n' + 1, column + 1⟩ ∧
    ∀ (file : String) (d : Diagnostic), d.start = offset →
      ∀ c, t[k]? = some c → c ≠ '\n' → ¬t.InLineEnd k →
        let found := locateIn file (Utf8.encode t) d
        found.place.line = ((t.take k).count '\n' + 1 : Nat) ∧
        found.place.column = (column + 1 : Nat) ∧
        ∃ row, found.sourceLine = some row ∧ row[column]? = some c ∧
          ∃ label shown caret, found.textLines true = [label, shown, caret, ""] ∧
            shown.toList = List.replicate 4 ' ' ++ row ∧
            caret.toList = List.replicate (4 + column) ' ' ++ ['^'] ∧
            shown.toList[4 + column]? = some c := by
  intro offset column
  have hplace : Location.ofOffset (Utf8.encode t) offset = ⟨(t.take k).count '\n' + 1, column + 1⟩ := by
    have h := ofOffset_encode (t.take k) (t.drop k)
    rwa [List.take_append_drop] at h
  refine ⟨hplace, fun file d hstart c hc hnewline hend => ?_⟩
  intro found
  have hline : found.sourceLine = some (Text.trimEnd (· = '\r')
      (Text.lastLine (t.take k) ++ (t.drop k).takeWhile (· ≠ '\n'))) := by
    have h := sourceLine_locateIn hstart (t.drop k) file
    rwa [List.take_append_drop] at h
  -- the character is the first one of the rest of its line
  have hfirst : ((t.drop k).takeWhile (· ≠ '\n'))[0]? = some c := by
    obtain ⟨hk, hget⟩ := List.getElem?_eq_some_iff.mp hc
    rw [List.drop_eq_getElem_cons hk, hget, List.takeWhile_cons_of_pos (by simpa using hnewline)]
    rfl
  have hchar : (Text.trimEnd (· = '\r')
      (Text.lastLine (t.take k) ++ (t.drop k).takeWhile (· ≠ '\n')))[column]? = some c := by
    rw [getElem?_trimEnd, hfirst]
    intro hall
    exact hend fun x hx => of_decide_eq_true (hall x hx)
  have hnumber : found.place.line = ((t.take k).count '\n' + 1 : Nat) := by
    show ((Location.ofOffset (Utf8.encode t) d.start).line : Int) = _
    rw [hstart, hplace]
  have hcolumn : found.place.column = (column + 1 : Nat) := by
    show ((Location.ofOffset (Utf8.encode t) d.start).column : Int) = _
    rw [hstart, hplace]
  obtain ⟨label, shown, caret, htext, hshown, hcaret⟩ := textLines_of_sourceLine hline hcolumn
  refine ⟨hnumber, hcolumn, _, hline, hchar, label, shown, caret, htext, hshown, hcaret, ?_⟩
  rw [hshown, List.getElem?_append_right (by rw [List.length_replicate]; exact Nat.le_add_right 4 _),
    List.length_replicate, Nat.add_sub_cancel_left]
  exact hchar

/-- A carriage return inside of a line, behind a character of two bytes, and one at its end: the first
one has a caret, and so has the character behind it. -/
theorem place_and_caret_carriageReturns :
    let t : Text := "x\né\ra\r\r\n".toList
    let d : Diagnostic := ⟨"R2", "", 5, 6, .info, false⟩
    d.start = (Utf8.encode (t.take 4)).length ∧ t[4]? = some 'a' ∧ 'a' ≠ '\n' ∧ ¬t.InLineEnd 4 ∧
      t.InLineEnd 5 ∧ Location.ofOffset (Utf8.encode t) 5 = ⟨2, 3⟩ ∧
      (locateIn "a.js" (Utf8.encode t) d).place.column = 3 ∧
      ∃ row, (locateIn "a.js" (Utf8.encode t) d).sourceLine = some row ∧ row[2]? = some 'a' := by
  intro t d
  have hstart : d.start = (Utf8.encode (t.take 4)).length := by decide +kernel
  have hend : ¬t.InLineEnd 4 := by decide +kernel
  obtain ⟨hplace, hcaret⟩ := place_and_caret t 4
  obtain ⟨-, hnumber, row, hrow, hchar, -⟩ := hcaret "a.js" d hstart 'a' rfl (by decide) hend
  have hcolumn : (Text.lastLine (t.take 4)).length = 2 := by decide +kernel
  rw [hcolumn] at hnumber hchar
  exact ⟨hstart, rfl, by decide, hend, by decide +kernel, by decide +kernel, hnumber, row, hrow,
    hchar⟩

end PatchLint
