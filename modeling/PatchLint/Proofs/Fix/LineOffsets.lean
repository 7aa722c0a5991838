import PatchLint.Proofs.Fix.LineRemoval

/-!
# Where a line stands

Offsets are bytes of the whole text, and a finding belongs to the line that holds its offset. Here the
first byte of a line is counted (`lineStart`), and it is shown what deleting a line does to the bytes
around it: those in front of the line stay, and those behind it move up by its length.

* `lineIndex?_eq_some_iff` — the line of an offset is the one between whose ends it lies
* `DeletesLine.take_eq`, `DeletesLine.drop_eq` — the bytes in front of a deleted line and behind it
-/

namespace PatchLint

/-! ## Starts of lines -/

/-- The bytes of some lines with their newlines. -/
def lineBytes (lines : List Text) : List UInt8 := Utf8.encode (lines.flatMap (· ++ ['\n']))

/-- The offset at which the line of an index starts. -/
def lineStart (lines : List Text) (index : Nat) : Nat := (lineBytes (lines.take index)).length

theorem length_lineBytes_cons (line : Text) (lines : List Text) :
    (lineBytes (line :: lines)).length = (Utf8.encode line).length + 1 + (lineBytes lines).length := by
  rw [lineBytes, List.flatMap_cons, Utf8.encode_append, Utf8.encode_append, List.length_append,
    List.length_append]
  rfl

theorem lineStart_zero (lines : List Text) : lineStart lines 0 = 0 := rfl

theorem lineStart_cons_succ (line : Text) (lines : List Text) (index : Nat) :
    lineStart (line :: lines) (index + 1)
      = (Utf8.encode line).length + 1 + lineStart lines index := by
  rw [lineStart, List.take_succ_cons, length_lineBytes_cons]
  rfl

/-- **The line behind a line starts after its bytes and its newline.** -/
theorem lineStart_succ {lines : List Text} {index : Nat} {line : Text}
    (h : lines[index]? = some line) :
    lineStart lines (index + 1) = lineStart lines index + (Utf8.encode line).length + 1 := by
  induction lines generalizing index with
  | nil => cases h
  | cons l lines ih =>
    cases index with
    | zero =>
      cases h
      rw [lineStart_cons_succ, lineStart_zero, lineStart_zero]
      omega
    | succ index =>
      rw [lineStart_cons_succ, lineStart_cons_succ, ih h]
      omega

theorem lineStart_le_succ {lines : List Text} {index : Nat} (h : index < lines.length) :
    lineStart lines index ≤ lineStart lines (index + 1) := by
  rw [lineStart_succ (List.getElem?_eq_getElem h)]
  omega

theorem lineStart_append {front : List Text} {index : Nat} (h : index ≤ front.length)
    (back : List Text) : lineStart (front ++ back) index = lineStart front index := by
  rw [lineStart, List.take_append_of_le_length h]
  rfl

/-! ## Lines of offsets -/

theorem lineIndexFrom?_eq_some_iff {start offset : Nat} {lines : List Text} {index : Nat} :
    lineIndexFrom? start offset lines = some index ↔
      index < lines.length ∧ start + lineStart lines index ≤ offset ∧
        offset < start + lineStart lines (index + 1) := by
  induction lines generalizing start index with
  | nil => simp [lineIndexFrom?]
  | cons l lines ih =>
    rw [lineIndexFrom?]
    cases index with
    | zero =>
      rw [lineStart_cons_succ, lineStart_zero, lineStart_zero, List.length_cons]
      split
      · next hin => exact ⟨fun _ => by omega, fun _ => rfl⟩
      · next hout =>
        constructor
        · intro h
          obtain ⟨i, -, hi⟩ := Option.map_eq_some_iff.mp h
          cases hi
        · intro h
          exact absurd (by omega) hout
    | succ index =>
      rw [lineStart_cons_succ, lineStart_cons_succ, List.length_cons, Nat.add_lt_add_iff_right]
      split
      · next hin =>
        constructor
        · intro h
          cases h
        · intro h
          omega
      · next hout =>
        have hmap : (lineIndexFrom? (start + (Utf8.encode l).length + 1) offset lines).map (· + 1)
              = some (index + 1)
            ↔ lineIndexFrom? (start + (Utf8.encode l).length + 1) offset lines = some index := by
          simp
        rw [hmap, ih]
        omega

/-- **The line of an offset is the one between whose start and the next one's it lies.** -/
theorem lineIndex?_eq_some_iff {offset : Nat} {lines : List Text} {index : Nat} :
    lineIndex? lines offset = some index ↔
      index < lines.length ∧ lineStart lines index ≤ offset ∧
        offset < lineStart lines (index + 1) := by
  have hpos : ¬(offset : Int) < 0 := by omega
  have hfrom := @lineIndexFrom?_eq_some_iff 0 offset lines index
  rw [Nat.zero_add, Nat.zero_add] at hfrom
  rw [lineIndex?, if_neg hpos]
  exact hfrom

/-! ## Bytes around a deleted line -/

/-- Ended lines end with a newline. -/
theorem encode_dropLast_ended (lines : List Text) :
    Utf8.encode (lines.flatMap (· ++ ['\n'])).dropLast = (lineBytes lines).dropLast := by
  rcases List.eq_nil_or_concat lines with rfl | ⟨others, last, rfl⟩
  · rfl
  · rw [List.concat_eq_append, lineBytes, List.flatMap_append, List.flatMap_singleton,
      ← List.append_assoc, List.dropLast_concat, Utf8.encode_append _ ['\n']]
    exact List.dropLast_concat.symm

namespace DeletesLine

variable {index : Nat} {before after : Text}

/-- A line of the document is a piece of the text. -/
theorem lt_length_pieces (h : DeletesLine index before after) :
    index < (Text.pieces '\n' before).length :=
  Nat.lt_of_lt_of_le h.1 (Document.lines_prefix_pieces before).length_le

/-- **Deleting a line as a cut in the bytes.** -/
theorem exists_lineBytes (h : DeletesLine index before after) :
    ∃ line, (Document.ofText before).lines[index]? = some line ∧
      let front := lineBytes ((Document.ofText before).lines.take index)
      (∃ rest, Utf8.encode before = front ++ Utf8.encode line ++ 0x0A :: rest ∧
          Utf8.encode after = front ++ rest) ∨
        (Utf8.encode before = front ++ Utf8.encode line ∧ Utf8.encode after = front.dropLast) := by
  obtain ⟨line, hline, hcut⟩ := h.exists_cut
  refine ⟨line, hline, ?_⟩
  rcases hcut with ⟨rest, hbefore, hafter⟩ | ⟨hbefore, hafter⟩
  · have hbytes := congrArg Utf8.encode hbefore
    rw [Utf8.encode_append, Utf8.encode_append] at hbytes
    refine Or.inl ⟨Utf8.encode rest, hbytes, ?_⟩
    rw [hafter, Utf8.encode_append]
    rfl
  · have hbytes := congrArg Utf8.encode hbefore
    rw [Utf8.encode_append] at hbytes
    refine Or.inr ⟨hbytes, ?_⟩
    rw [hafter, encode_dropLast_ended]

/-- The same cut with the offsets of the line and of the one behind it. -/
theorem exists_bytes (h : DeletesLine index before after) :
    ∃ front line : List UInt8, front.length = lineStart (Text.pieces '\n' before) index ∧
      lineStart (Text.pieces '\n' before) (index + 1) = front.length + line.length + 1 ∧
      ((∃ rest, Utf8.encode before = front ++ line ++ 0x0A :: rest ∧
          Utf8.encode after = front ++ rest) ∨
        (Utf8.encode before = front ++ line ∧ Utf8.encode after = front.dropLast)) := by
  obtain ⟨line, hline, hcut⟩ := h.exists_lineBytes
  obtain ⟨back, hback⟩ := Document.lines_prefix_pieces before
  have hstart (i : Nat) (hi : i ≤ index + 1) :
      lineStart (Text.pieces '\n' before) i = lineStart (Document.ofText before).lines i := by
    rw [← hback]
    exact lineStart_append (Nat.le_trans hi h.1) back
  refine ⟨lineBytes ((Document.ofText before).lines.take index), Utf8.encode line, ?_, ?_, hcut⟩
  · exact (hstart index (Nat.le_succ index)).symm
  · rw [hstart (index + 1) (Nat.le_refl _), lineStart_succ hline]
    rfl

/-- **The bytes in front of a deleted line stay,** up to the newline in front of it. -/
theorem take_eq (h : DeletesLine index before after) {offset : Nat}
    (hoffset : offset < lineStart (Text.pieces '\n' before) index) :
    (Utf8.encode before).take offset = (Utf8.encode after).take offset := by
  obtain ⟨front, line, hfront, -, hcut⟩ := h.exists_bytes
  rw [← hfront] at hoffset
  have hle := Nat.le_of_lt hoffset
  rcases hcut with ⟨rest, hbefore, hafter⟩ | ⟨hbefore, hafter⟩
  · rw [hbefore, hafter, List.append_assoc, List.take_append_of_le_length hle,
      List.take_append_of_le_length hle]
  · rw [hbefore, hafter, List.take_append_of_le_length hle, List.dropLast_eq_take, List.take_take,
      Nat.min_eq_left (by omega)]

/-- **The bytes behind a deleted line move up by its length.** -/
theorem drop_eq (h : DeletesLine index before after) {offset : Nat}
    (hoffset : lineStart (Text.pieces '\n' before) index ≤ offset) :
    (Utf8.encode before).drop (offset + (lineStart (Text.pieces '\n' before) (index + 1)
        - lineStart (Text.pieces '\n' before) index))
      = (Utf8.encode after).drop offset := by
  obtain ⟨front, line, hfront, hnext, hcut⟩ := h.exists_bytes
  rw [← hfront] at hoffset ⊢
  obtain ⟨extra, rfl⟩ := Nat.exists_eq_add_of_le hoffset
  have hwidth : front.length + extra + (lineStart (Text.pieces '\n' before) (index + 1)
      - front.length) = (front ++ line).length + (1 + extra) := by
    rw [List.length_append]
    omega
  rw [hwidth]
  rcases hcut with ⟨rest, hbefore, hafter⟩ | ⟨hbefore, hafter⟩
  · rw [hbefore, hafter, List.drop_length_add_append, List.drop_length_add_append, Nat.add_comm 1,
      List.drop_succ_cons]
  · rw [hbefore, hafter, List.drop_eq_nil_of_le (Nat.le_add_right _ _),
      List.drop_eq_nil_of_le (by rw [List.length_dropLast]; omega)]

end DeletesLine

end PatchLint
