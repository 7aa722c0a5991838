import PatchLint.Proofs.Fix.LineOffsets
import PatchLint.Proofs.Text.Decoding
import PatchLint.Tree.Location

/-!
# The line that a fix deletes

The fix for an unused import finds the line of its finding by adding up the bytes of the lines, while
the location of the finding counts the newlines in front of it. Both mean the same line
(`line_ofOffset`): the lines in front of an offset have one newline each, and the line itself has none.

* `lineIndex?_eq_none_iff` — only offsets outside the text have no line
* `line_ofOffset` — the number of a location is that of the line that holds its offset
* `length_le_lineIndex?_iff` — the offset behind the last newline is on no line of the document
* `removeImport?_reportedLine` — the fix deletes the line with the number of the location
-/

namespace PatchLint

/-! ## Bytes of lines -/

/-- The offset behind all lines of a text is one behind its last byte. -/
theorem lineStart_length_pieces (t : Text) :
    lineStart (Text.pieces '\n' t) (Text.pieces '\n' t).length = (Utf8.encode t).length + 1 := by
  have hbytes : (Text.pieces '\n' t).flatMap (· ++ ['\n']) = t ++ ['\n'] := by
    have hne := Text.pieces_ne_nil '\n' t
    rw [← Document.toText_ended, Document.toText_eq_joinWith, if_pos rfl,
      Text.joinWith_concat_nil ['\n'] hne, Text.joinWith_pieces]
  rw [lineStart, List.take_length, lineBytes, hbytes, Utf8.encode_append, List.length_append]
  rfl

/-- A text is the bytes of the lines in front of a line, of this line, and of what comes after it. -/
theorem exists_encode_eq {t line : Text} {index : Nat}
    (h : (Text.pieces '\n' t)[index]? = some line) :
    ∃ rest, Utf8.encode t
      = lineBytes ((Text.pieces '\n' t).take index) ++ (Utf8.encode line ++ rest) := by
  obtain ⟨hlt, hline⟩ := List.getElem?_eq_some_iff.mp h
  have hlines : (Text.pieces '\n' t).take index ++ line :: (Text.pieces '\n' t).drop (index + 1)
      = Text.pieces '\n' t := by
    rw [← hline, ← List.drop_eq_getElem_cons hlt, List.take_append_drop]
  have hjoin (ls : List Text) : Document.toText ⟨ls, false⟩ = Text.joinWith ['\n'] ls := by
    rw [Document.toText_eq_joinWith, if_neg Bool.false_ne_true, List.append_nil]
  have htext : t = ((Text.pieces '\n' t).take index).flatMap (· ++ ['\n'])
      ++ Text.joinWith ['\n'] (line :: (Text.pieces '\n' t).drop (index + 1)) := by
    rw [← hjoin, ← Document.toText_append _ false (List.cons_ne_nil _ _), hjoin, hlines,
      Text.joinWith_pieces]
  have hbytes := congrArg Utf8.encode htext
  rw [Utf8.encode_append] at hbytes
  rw [hbytes, lineBytes]
  cases (Text.pieces '\n' t).drop (index + 1) with
  | nil => exact ⟨[], by rw [List.append_nil]; rfl⟩
  | cons next lines =>
    refine ⟨Utf8.encode ('\n' :: Text.joinWith ['\n'] (next :: lines)), ?_⟩
    rw [← Utf8.encode_append line, Text.joinWith, List.append_assoc]
    rfl

theorem count_newline_encode {line : Text} (h : '\n' ∉ line) :
    (Utf8.encode line).count newlineByte = 0 :=
  List.count_eq_zero.mpr fun hmem => h ((Utf8.byte_mem_encode_iff (c := '\n') (by decide)).mp hmem)

/-- Lines have one newline each. -/
theorem count_newline_lineBytes {lines : List Text} (h : ∀ l ∈ lines, '\n' ∉ l) :
    (lineBytes lines).count newlineByte = lines.length := by
  induction lines with
  | nil => rfl
  | cons l lines ih =>
    rw [List.forall_mem_cons] at h
    have hcons : lineBytes (l :: lines)
        = Utf8.encode l ++ newlineByte :: lineBytes lines := by
      rw [lineBytes, List.flatMap_cons, Utf8.encode_append, Utf8.encode_append, List.append_assoc]
      rfl
    rw [hcons, List.count_append, count_newline_encode h.1, List.count_cons_self, ih h.2,
      List.length_cons, Nat.zero_add]

/-! ## Lines of offsets -/

theorem lineIndexFrom?_eq_none_iff {start offset : Nat} {lines : List Text} (h : start ≤ offset) :
    lineIndexFrom? start offset lines = none ↔ start + lineStart lines lines.length ≤ offset := by
  induction lines generalizing start with
  | nil => simpa [lineIndexFrom?, lineStart, lineBytes] using h
  | cons l lines ih =>
    rw [lineIndexFrom?, List.length_cons, lineStart_cons_succ]
    split
    · next hin =>
      constructor
      · intro hnone
        cases hnone
      · omega
    · next hout =>
      rw [Option.map_eq_none_iff, ih (by omega)]
      omega

/-- **Only offsets outside the text have no line.** -/
theorem lineIndex?_eq_none_iff {t : Text} {offset : Int} :
    lineIndex? (Text.pieces '\n' t) offset = none
      ↔ offset < 0 ∨ (Utf8.encode t).length < offset := by
  rw [lineIndex?]
  split
  · next hneg => exact ⟨fun _ => Or.inl hneg, fun _ => rfl⟩
  · next hpos =>
    obtain ⟨n, rfl⟩ := Int.eq_ofNat_of_zero_le (Int.not_lt.mp hpos)
    rw [lineIndexFrom?_eq_none_iff (Nat.zero_le n), lineStart_length_pieces]
    omega

/-- A line is found for an offset that is not negative. -/
theorem exists_offset_of_lineIndex? {lines : List Text} {offset : Int} {index : Nat}
    (h : lineIndex? lines offset = some index) : ∃ n : Nat, offset = n := by
  rw [lineIndex?] at h
  split at h
  · cases h
  · next hpos => exact Int.eq_ofNat_of_zero_le (Int.not_lt.mp hpos)

/-- **The number of a location is that of the line that holds its offset.** -/
theorem line_ofOffset {t : Text} {offset : Int} {index : Nat}
    (h : lineIndex? (Text.pieces '\n' t) offset = some index) :
    (Location.ofOffset (Utf8.encode t) offset).line = index + 1 := by
  obtain ⟨n, rfl⟩ := exists_offset_of_lineIndex? h
  obtain ⟨hlt, hlo, hhi⟩ := lineIndex?_eq_some_iff.mp h
  have hline := List.getElem?_eq_getElem hlt
  have hpiece {l : Text} (hl : l ∈ Text.pieces '\n' t) : '\n' ∉ l := Text.not_mem_of_mem_pieces hl
  obtain ⟨rest, hbytes⟩ := exists_encode_eq hline
  -- the bytes in front of the offset: all lines in front of the line, and a part of the line
  obtain ⟨width, rfl⟩ := Nat.exists_eq_add_of_le hlo
  rw [lineStart_succ hline] at hhi
  have hfront : (Utf8.encode t).take (lineStart (Text.pieces '\n' t) index + width)
      = lineBytes ((Text.pieces '\n' t).take index)
        ++ (Utf8.encode (Text.pieces '\n' t)[index]).take width := by
    rw [hbytes, lineStart, List.take_length_add_append, List.take_append_of_le_length (by omega)]
  have hwidth : ((Utf8.encode (Text.pieces '\n' t)[index]).take width).count newlineByte = 0 := by
    have hcount := count_newline_encode (hpiece (List.getElem_mem hlt))
    exact Nat.le_zero.mp (hcount ▸ (List.take_sublist width _).count_le newlineByte)
  show ((Utf8.encode t).take (Int.toNat _)).count newlineByte + 1 = index + 1
  rw [Int.toNat_natCast, hfront, List.count_append, hwidth,
    count_newline_lineBytes fun l hl => hpiece (List.mem_of_mem_take hl), List.length_take_of_le
    (Nat.le_of_lt hlt), Nat.add_zero]

/-! ## Behind the last newline -/

theorem ended_iff (t : Text) :
    (Document.ofText t).ended = true ↔ t = [] ∨ t.getLast? = some '\n' := by
  rw [Document.getLast?_eq_newline_iff]
  constructor
  · intro hended
    by_cases hlines : (Document.ofText t).lines = []
    · refine Or.inl ?_
      rw [← Document.toText_ofText t, Document.toText, hlines]
      rfl
    · exact Or.inr ⟨hlines, hended⟩
  · rintro (rfl | ⟨-, hended⟩)
    · rfl
    · exact hended

/-- The empty line behind the last newline starts at the end of the text. -/
theorem lineStart_lines {t : Text} (h : (Document.ofText t).ended = true) :
    lineStart (Text.pieces '\n' t) (Document.ofText t).lines.length = (Utf8.encode t).length := by
  have hpieces := Document.pieces_eq_lines t
  rw [if_pos h] at hpieces
  have hlast : (Text.pieces '\n' t)[(Document.ofText t).lines.length]? = some [] := by
    rw [hpieces, List.getElem?_concat_length]
  have hnext := lineStart_succ hlast
  have hlength : (Text.pieces '\n' t).length = (Document.ofText t).lines.length + 1 := by
    rw [hpieces, List.length_append, List.length_singleton]
  rw [← hlength, lineStart_length_pieces, Utf8.encode_nil, List.length_nil] at hnext
  omega

/-- **Only the end of a text without an open line is on no line of the document.** -/
theorem length_le_lineIndex?_iff {t : Text} {offset : Int} {index : Nat}
    (h : lineIndex? (Text.pieces '\n' t) offset = some index) :
    (Document.ofText t).lines.length ≤ index
      ↔ offset = (Utf8.encode t).length ∧ (t = [] ∨ t.getLast? = some '\n') := by
  obtain ⟨n, rfl⟩ := exists_offset_of_lineIndex? h
  obtain ⟨hlt, hlo, hhi⟩ := lineIndex?_eq_some_iff.mp h
  rw [← ended_iff]
  have hlength := congrArg List.length (Document.pieces_eq_lines t)
  rw [List.length_append] at hlength
  by_cases hended : (Document.ofText t).ended = true
  · rw [if_pos hended, List.length_singleton] at hlength
    have hstart := lineStart_lines hended
    have hend := lineStart_length_pieces t
    rw [hlength] at hend
    constructor
    · intro hle
      obtain rfl : index = (Document.ofText t).lines.length := by omega
      exact ⟨by omega, hended⟩
    · rintro ⟨hoffset, -⟩
      -- the empty line behind the last newline holds this offset, and no other line does
      have hindex : lineIndex? (Text.pieces '\n' t) (n : Int)
          = some (Document.ofText t).lines.length :=
        lineIndex?_eq_some_iff.mpr ⟨by omega, by omega, by omega⟩
      exact Nat.le_of_eq (Option.some.inj (hindex.symm.trans h))
  · rw [if_neg hended, List.length_nil] at hlength
    constructor
    · omega
    · exact fun hnot => absurd hnot.2 hended

/-! ## The fix -/

/-- Deleting a line of a document is deleting a piece of its text. -/
theorem toText_eraseIdx {t : Text} {index : Nat} (h : index < (Document.ofText t).lines.length) :
    Document.toText { Document.ofText t with lines := (Document.ofText t).lines.eraseIdx index }
      = Text.joinWith ['\n'] ((Text.pieces '\n' t).eraseIdx index) := by
  rw [Document.toText_eq_joinWith, Document.pieces_eq_lines t, List.eraseIdx_append_of_lt_length h]

/-- The fix for an unused import is the diff for the line of its finding. -/
theorem removeImport?_eq {t : Text} {d : Diagnostic} (hrule : d.ruleId = Rule.unusedImport.code) :
    removeImport? t d = (lineIndex? (Text.pieces '\n' t) d.start).bind fun index =>
      (Text.pieces '\n' t)[index]?.map (removalDiff (index + 1)) := by
  rw [removeImport?, if_pos hrule]
  dsimp only
  cases lineIndex? (Text.pieces '\n' t) d.start with
  | none => rfl
  | some index => rfl

theorem removeImport?_eq_none_iff {t : Text} {d : Diagnostic}
    (hrule : d.ruleId = Rule.unusedImport.code) :
    removeImport? t d = none ↔ d.start < 0 ∨ (Utf8.encode t).length < d.start := by
  rw [← lineIndex?_eq_none_iff, removeImport?_eq hrule]
  cases hindex : lineIndex? (Text.pieces '\n' t) d.start with
  | none => simp
  | some index =>
    -- the line of an offset is one of the pieces
    obtain ⟨n, hn⟩ := exists_offset_of_lineIndex? hindex
    rw [hn] at hindex
    have hlt := (lineIndex?_eq_some_iff.mp hindex).1
    simp [hlt]

/-- **The fix for an unused import deletes the reported line.** There is no fix just for a finding that
starts outside the text. Otherwise the fix takes away the piece with the line number of the finding,
if this is a line of the document. It does not apply if the line is the empty piece behind the last
newline, that is, if the finding starts at the very end of a text that is empty or ends with a newline. -/
theorem removeImport?_reportedLine {d : Diagnostic} (hrule : d.ruleId = Rule.unusedImport.code)
    (t : Text) :
    (removeImport? t d = none ↔ d.start < 0 ∨ (Utf8.encode t).length < d.start) ∧
      ∀ diff, removeImport? t d = some diff →
        let number := (Location.ofOffset (Utf8.encode t) d.start).line
        let count := (Document.ofText t).lines.length
        (number ≤ count → applyDiff? t diff
          = some (Text.joinWith ['\n'] ((Text.pieces '\n' t).eraseIdx (number - 1)))) ∧
        (count < number → applyDiff? t diff = none) ∧
        (count < number ↔ d.start = (Utf8.encode t).length ∧ (t = [] ∨ t.getLast? = some '\n')) := by
  refine ⟨removeImport?_eq_none_iff hrule, fun diff hdiff => ?_⟩
  rw [removeImport?_eq hrule] at hdiff
  obtain ⟨index, hindex, hdiff⟩ := Option.bind_eq_some_iff.mp hdiff
  obtain ⟨line, hline, rfl⟩ := Option.map_eq_some_iff.mp hdiff
  dsimp only
  rw [line_ofOffset hindex, applyDiff?_removalDiff hline, Nat.add_sub_cancel, Nat.lt_succ_iff]
  refine ⟨fun hle => ?_, fun hlt => ?_, length_le_lineIndex?_iff hindex⟩
  · have hlt : index < (Document.ofText t).lines.length := hle
    rw [if_pos hlt, toText_eraseIdx hlt]
  · rw [if_neg (Nat.not_lt.mpr hlt)]

/-- A finding about an unused import that starts at an offset. -/
def unusedImportAt (start : Int) : Diagnostic :=
  ⟨Rule.unusedImport.code, "Unused import: 'a'", start, start + 18, .info, true⟩

/-- Behind a line of five characters in six bytes the second line is deleted. At the end of the text
there is no line to delete, and behind it no fix. -/
theorem removeImport?_reportedLine_multibyte :
    let t := "é();\nimport a from 'a';\n".toList
    (unusedImportAt 6).ruleId = Rule.unusedImport.code ∧
      (∃ diff, removeImport? t (unusedImportAt 6) = some diff ∧
        applyDiff? t diff = some "é();\n".toList) ∧
      (∃ diff, removeImport? t (unusedImportAt 25) = some diff ∧ applyDiff? t diff = none) ∧
      removeImport? t (unusedImportAt 26) = none := by
  intro t
  have hcode (start : Int) : (unusedImportAt start).ruleId = Rule.unusedImport.code := rfl
  obtain ⟨hfix, hline⟩ := removeImport?_reportedLine (hcode 6) t
  obtain ⟨hfixEnd, hend⟩ := removeImport?_reportedLine (hcode 25) t
  obtain ⟨diff, hdiff⟩ := Option.ne_none_iff_exists'.mp (mt hfix.mp (by decide +kernel))
  obtain ⟨diffEnd, hdiffEnd⟩ := Option.ne_none_iff_exists'.mp (mt hfixEnd.mp (by decide +kernel))
  refine ⟨hcode 6, ⟨diff, hdiff, ?_⟩, ⟨diffEnd, hdiffEnd, ?_⟩, ?_⟩
  · rw [(hline diff hdiff).1 (by decide +kernel)]
    decide +kernel
  · exact (hend diffEnd hdiffEnd).2.1 (by decide +kernel)
  · exact (removeImport?_reportedLine (hcode 26) t).1.mpr (Or.inr (by decide +kernel))

end PatchLint
