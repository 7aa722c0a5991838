import PatchLint.Proofs.Text.Boundaries
import PatchLint.Proofs.Text.Pieces
import PatchLint.Tree.Location

/-!
# Newlines in bytes

The byte of a newline is found in no other character. So in the encoding of a text the newlines are
those of the text: they are as many, the bytes after the last one are the encoding of the last line, and
cutting the bytes into lines is cutting the text.

* `getElem?_pieces_append` — the line of an index: its part in front of the index and its part behind
* `count_newlineByte_encode`, `lastLine_encode`, `byteLines_encode` — the same in the bytes
* `sourceLine?_encode` — the line with a number
-/

namespace PatchLint

/-! ## Last lines -/

/-- The characters after the last newline. -/
def Text.lastLine (t : Text) : Text := (t.reverse.takeWhile (· ≠ '\n')).reverse

theorem Text.lastLine_concat (t : Text) (c : Char) :
    lastLine (t ++ [c]) = if c = '\n' then [] else lastLine t ++ [c] := by
  unfold lastLine
  rw [List.reverse_append, List.reverse_singleton, List.singleton_append]
  by_cases hc : c = '\n'
  · simp [hc]
  · simp [hc]

/-- A text is its last line, or ends with a newline and its last line. -/
theorem Text.exists_lastLine (t : Text) :
    '\n' ∉ lastLine t ∧ (t = lastLine t ∨ ∃ front, t = front ++ '\n' :: lastLine t) := by
  induction t using List.reverseRecOn with
  | nil => exact ⟨List.not_mem_nil, Or.inl rfl⟩
  | append_singleton t c ih =>
    obtain ⟨hnewline, hsplit⟩ := ih
    rw [lastLine_concat]
    by_cases hc : c = '\n'
    · rw [if_pos hc, hc]
      exact ⟨List.not_mem_nil, Or.inr ⟨t, rfl⟩⟩
    · rw [if_neg hc]
      refine ⟨?_, ?_⟩
      · simp only [List.mem_append, List.mem_singleton, not_or]
        exact ⟨hnewline, fun h => hc h.symm⟩
      · rcases hsplit with hwhole | ⟨front, hfront⟩
        · exact Or.inl (congrArg (· ++ [c]) hwhole)
        · refine Or.inr ⟨front, ?_⟩
          rw [← List.cons_append, ← List.append_assoc, ← hfront]

/-- **The line of an index**: what stands on it in front of the index, and what follows up to the next
newline. -/
theorem Text.getElem?_pieces_append (a b : Text) :
    (pieces '\n' (a ++ b))[a.count '\n']? = some (lastLine a ++ b.takeWhile (· ≠ '\n')) := by
  obtain ⟨hnewline, hsplit⟩ := exists_lastLine a
  have hfirst : (pieces '\n' (lastLine a ++ b))[0]?
      = some (lastLine a ++ b.takeWhile (· ≠ '\n')) := by
    rw [head?_pieces, List.takeWhile_append_of_pos]
    intro c hc
    simp only [decide_eq_true_eq]
    rintro rfl
    exact hnewline hc
  have hcount : (lastLine a).count '\n' = 0 := List.count_eq_zero.mpr hnewline
  rcases hsplit with hwhole | ⟨front, hfront⟩
  · rw [← hwhole] at hfirst hcount ⊢
    rw [hcount]
    exact hfirst
  · have hindex : a.count '\n' = (pieces '\n' front).length := by
      rw [hfront, List.count_append, List.count_cons_self, hcount, length_pieces]
    have hpieces : pieces '\n' (a ++ b) = pieces '\n' front ++ pieces '\n' (lastLine a ++ b) := by
      rw [← pieces_append_sep, ← List.cons_append, ← List.append_assoc, ← hfront]
    rw [hpieces, hindex, List.getElem?_append_right (Nat.le_refl _), Nat.sub_self, hfirst]

/-! ## Newlines in bytes -/

/-- Bytes without a newline belong to the last line. -/
theorem Location.lastLine_append (bs : List UInt8) {more : List UInt8} (h : newlineByte ∉ more) :
    lastLine (bs ++ more) = lastLine bs ++ more := by
  have hmore : ∀ b ∈ more.reverse, decide (b ≠ newlineByte) = true := by
    intro b hb
    simp only [decide_eq_true_eq]
    rintro rfl
    exact h (List.mem_reverse.mp hb)
  unfold lastLine
  rw [List.reverse_append, List.takeWhile_append_of_pos hmore, List.reverse_append,
    List.reverse_reverse]

theorem newlineByte_mem_encode_iff {t : Text} : newlineByte ∈ Utf8.encode t ↔ '\n' ∈ t :=
  Utf8.byte_mem_encode_iff (c := '\n') (by decide)

theorem newlineByte_mem_encodeChar_iff {c : Char} : newlineByte ∈ Utf8.encodeChar c ↔ c = '\n' := by
  have h := newlineByte_mem_encode_iff (t := [c])
  rwa [Utf8.encode_cons, Utf8.encode_nil, List.append_nil, List.mem_singleton, eq_comm] at h

/-- Newlines are counted in the bytes as in the text. -/
theorem count_newlineByte_encode (t : Text) : (Utf8.encode t).count newlineByte = t.count '\n' := by
  induction t with
  | nil => rfl
  | cons c t ih =>
    rw [Utf8.encode_cons, List.count_append, ih]
    by_cases hc : c = '\n'
    · rw [hc, List.count_cons_self, Nat.add_comm]
      rfl
    · rw [List.count_eq_zero.mpr (mt newlineByte_mem_encodeChar_iff.mp hc), List.count_cons_of_ne hc,
        Nat.zero_add]

/-- **The last line of the bytes is that of the text.** -/
theorem lastLine_encode (t : Text) :
    Location.lastLine (Utf8.encode t) = Utf8.encode (Text.lastLine t) := by
  obtain ⟨hnewline, hsplit⟩ := Text.exists_lastLine t
  have hbytes : newlineByte ∉ Utf8.encode (Text.lastLine t) := mt newlineByte_mem_encode_iff.mp hnewline
  rcases hsplit with hwhole | ⟨front, hfront⟩
  · rw [← hwhole] at hbytes ⊢
    exact Location.lastLine_append [] hbytes
  · have hencode : Utf8.encode t
        = (Utf8.encode front ++ [newlineByte]) ++ Utf8.encode (Text.lastLine t) := by
      conv_lhs => rw [hfront]
      rw [Utf8.encode_append, Utf8.encode_cons, List.append_assoc]
      rfl
    have hempty : Location.lastLine (Utf8.encode front ++ [newlineByte]) = [] := by
      simp [Location.lastLine]
    rw [hencode, Location.lastLine_append _ hbytes, hempty, List.nil_append]

/-! ## Lines in bytes -/

/-- Bytes without a newline belong to the line that follows them. -/
theorem byteLines_append {bs more line : List UInt8} {lines : List (List UInt8)}
    (hbs : newlineByte ∉ bs) (hmore : byteLines more = line :: lines) :
    byteLines (bs ++ more) = (bs ++ line) :: lines := by
  induction bs with
  | nil => exact hmore
  | cons b bs ih =>
    rw [List.mem_cons, not_or] at hbs
    rw [List.cons_append, byteLines, if_neg (fun h => hbs.1 h.symm), ih hbs.2]
    rfl

/-- **Cutting the bytes into lines is cutting the text.** -/
theorem byteLines_encode (t : Text) :
    byteLines (Utf8.encode t) = (Text.pieces '\n' t).map Utf8.encode := by
  induction t with
  | nil => rfl
  | cons c t ih =>
    rw [Utf8.encode_cons, Text.pieces]
    by_cases hc : c = '\n'
    · subst hc
      rw [if_pos rfl, List.map_cons, ← ih]
      rfl
    · obtain ⟨p, ps, hp⟩ := List.exists_cons_of_ne_nil (Text.pieces_ne_nil '\n' t)
      rw [hp, List.map_cons] at ih
      rw [if_neg hc, hp, byteLines_append (mt newlineByte_mem_encodeChar_iff.mp hc) ih]
      show _ = Utf8.encode (c :: p) :: ps.map Utf8.encode
      rw [Utf8.encode_cons]

/-- The line with a number is found in the bytes as in the text. -/
theorem sourceLine?_encode (t : Text) (index : Nat) :
    sourceLine? (Utf8.encode t) (index + 1) = (Text.pieces '\n' t)[index]? := by
  unfold sourceLine?
  rw [if_neg (Nat.succ_ne_zero index), Nat.add_sub_cancel, byteLines_encode, List.getElem?_map,
    Option.map_map]
  have hsame : Utf8.decodeLossy ∘ Utf8.encode = id := funext Utf8.decodeLossy_encode
  rw [hsame, Option.map_id, id]

end PatchLint
