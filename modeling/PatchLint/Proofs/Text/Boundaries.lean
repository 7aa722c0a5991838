import Mathlib.Data.List.Infix
import PatchLint.Proofs.Text.Decoding

/-!
# Boundaries of characters

Decoding the bytes of a text gives the text back (`decodeLossy_encode`), whatever the text holds. So the
bytes between two boundaries of characters are those of the text that stands between them
(`exists_encode_between`), and decoding these bytes loses nothing.

* `readTail_byte`, `lead?_two`, `exists_lead?_three`, `exists_lead?_four` — the bytes of a character, one by
  one
* `unit_encodeChar` — the bytes of a character are a unit, whatever follows them
* `IsBoundary` — the offsets at which a character starts, and the end of the text
-/

namespace PatchLint.Utf8

/-! ## Units -/

/-- A byte of six bits is read, if it lies in the range of the next byte. -/
theorem readTail_byte {bits left taken lo hi k : Nat} {bs : List UInt8} (hk : k < 0x40)
    (hlo : lo ≤ 0x80 + k) (hhi : 0x80 + k ≤ hi) :
    readTail bits (left + 1) taken lo hi (byte (0x80 + k) :: bs)
      = readTail (bits * 0x40 + k) left (taken + 1) 0x80 0xBF bs := by
  rw [readTail, toNat_byte (by omega), if_pos ⟨hlo, hhi⟩, Nat.add_sub_cancel_left]

theorem lead?_two {k : Nat} (hlong : 2 ≤ k) (hk : k < 0x20) :
    lead? (0xC0 + k) = some ⟨k, 1, 0x80, 0xBF⟩ := by
  rw [lead?, if_neg (by omega), if_neg (by omega), if_pos (by omega), Nat.add_sub_cancel_left]

/-- The first byte of three, and the second one. -/
theorem exists_lead?_three {k m : Nat} (hk : k < 0x10) (hm : m < 0x40) (hlong : k = 0 → 0x20 ≤ m)
    (hsurrogate : k = 0xD → m < 0x20) :
    ∃ lo hi, lead? (0xE0 + k) = some ⟨k, 2, lo, hi⟩ ∧ lo ≤ 0x80 + m ∧ 0x80 + m ≤ hi := by
  rw [lead?, if_neg (by omega), if_neg (by omega), if_neg (by omega)]
  by_cases hfirst : k = 0
  · subst hfirst
    exact ⟨0xA0, 0xBF, rfl, by omega, by omega⟩
  rw [if_neg (by omega)]
  by_cases hgap : k = 0xD
  · subst hgap
    exact ⟨0x80, 0x9F, rfl, by omega, by omega⟩
  rw [if_neg (by omega), if_pos (by omega), Nat.add_sub_cancel_left]
  exact ⟨0x80, 0xBF, rfl, by omega, by omega⟩

/-- The first byte of four, and the second one. -/
theorem exists_lead?_four {k m : Nat} (hk : k ≤ 4) (hm : m < 0x40) (hlong : k = 0 → 0x10 ≤ m)
    (hlast : k = 4 → m < 0x10) :
    ∃ lo hi, lead? (0xF0 + k) = some ⟨k, 3, lo, hi⟩ ∧ lo ≤ 0x80 + m ∧ 0x80 + m ≤ hi := by
  rw [lead?, if_neg (by omega), if_neg (by omega), if_neg (by omega), if_neg (by omega),
    if_neg (by omega), if_neg (by omega)]
  by_cases hfirst : k = 0
  · subst hfirst
    exact ⟨0x90, 0xBF, rfl, by omega, by omega⟩
  rw [if_neg (by omega)]
  by_cases hend : k = 4
  · subst hend
    exact ⟨0x80, 0x8F, rfl, by omega, by omega⟩
  rw [if_pos (by omega), Nat.add_sub_cancel_left]
  exact ⟨0x80, 0xBF, rfl, by omega, by omega⟩

/-- **The bytes of a character are a unit, whatever follows them.** -/
theorem unit_encodeChar (c : Char) (bs : List UInt8) :
    ∃ b rest, encodeChar c = b :: rest ∧ unit b (rest ++ bs) = .char c rest.length := by
  have hvalid := isValidChar_toNat c
  unfold Nat.isValidChar at hvalid
  have hchar (bits : Nat) (h : bits = c.toNat) : Char.ofNat bits = c := by rw [h, Char.ofNat_toNat]
  rw [encodeChar]
  split
  · next hone =>
    refine ⟨_, _, rfl, ?_⟩
    rw [unit, toNat_byte (by omega), lead?, if_pos hone]
    dsimp only
    rw [readTail_zero, hchar _ rfl]
    rfl
  split
  · next hone htwo =>
    refine ⟨_, _, rfl, ?_⟩
    rw [unit, toNat_byte (by omega), lead?_two (by omega) (by omega)]
    dsimp only [List.cons_append]
    rw [readTail_byte (by omega) (by omega) (by omega), readTail_zero, hchar _ (by omega)]
    rfl
  split
  · next hone htwo hthree =>
    obtain ⟨lo, hi, hlead, hlo, hhi⟩ := exists_lead?_three (k := c.toNat / 0x1000)
      (m := c.toNat / 0x40 % 0x40) (by omega) (by omega) (by omega) (by omega)
    refine ⟨_, _, rfl, ?_⟩
    rw [unit, toNat_byte (by omega), hlead]
    dsimp only [List.cons_append]
    rw [readTail_byte (by omega) hlo hhi, readTail_byte (by omega) (by omega) (by omega),
      readTail_zero, hchar _ (by omega)]
    rfl
  · next hone htwo hthree =>
    obtain ⟨lo, hi, hlead, hlo, hhi⟩ := exists_lead?_four (k := c.toNat / 0x40000)
      (m := c.toNat / 0x1000 % 0x40) (by omega) (by omega) (by omega) (by omega)
    refine ⟨_, _, rfl, ?_⟩
    rw [unit, toNat_byte (by omega), hlead]
    dsimp only [List.cons_append]
    rw [readTail_byte (by omega) hlo hhi, readTail_byte (by omega) (by omega) (by omega),
      readTail_byte (by omega) (by omega) (by omega), readTail_zero, hchar _ (by omega)]
    rfl

/-! ## Texts -/

theorem decodeLossy_encodeChar (c : Char) (bs : List UInt8) :
    decodeLossy (encodeChar c ++ bs) = c :: decodeLossy bs := by
  obtain ⟨b, rest, hchar, hunit⟩ := unit_encodeChar c bs
  rw [hchar, List.cons_append, decodeLossy, hunit]
  show c :: decodeLossy ((rest ++ bs).drop rest.length) = c :: decodeLossy bs
  rw [List.drop_left]

/-- **Decoding the bytes of a text gives the text back.** -/
theorem decodeLossy_encode (t : Text) : decodeLossy (encode t) = t := by
  induction t with
  | nil => rw [encode_nil, decodeLossy]
  | cons c t ih => rw [encode_cons, decodeLossy_encodeChar, ih]

/-! ## Boundaries -/

/-- Whether a character of a text starts at an offset, or the text ends there. -/
def IsBoundary (t : Text) (offset : Nat) : Prop := ∃ front, front <+: t ∧ (encode front).length = offset

instance (t : Text) (offset : Nat) : Decidable (IsBoundary t offset) :=
  decidable_of_iff (∃ front ∈ t.inits, (encode front).length = offset) <| by
    simp only [List.mem_inits, IsBoundary]

theorem le_length_of_isBoundary {t : Text} {offset : Nat} (h : IsBoundary t offset) :
    offset ≤ (encode t).length := by
  obtain ⟨front, ⟨back, rfl⟩, rfl⟩ := h
  rw [encode_append, List.length_append]
  exact Nat.le_add_right _ _

/-- **Two boundaries cut a text into three.** -/
theorem exists_between {t : Text} {start stop : Nat} (hstart : IsBoundary t start)
    (hstop : IsBoundary t stop) (hle : start ≤ stop) :
    ∃ front mid back, t = front ++ mid ++ back ∧ (encode front).length = start ∧
      (encode (front ++ mid)).length = stop := by
  obtain ⟨front, hfront, rfl⟩ := hstart
  obtain ⟨upto, hupto, rfl⟩ := hstop
  rcases List.prefix_or_prefix_of_prefix hfront hupto with ⟨mid, rfl⟩ | ⟨more, rfl⟩
  · obtain ⟨back, rfl⟩ := hupto
    exact ⟨front, mid, back, rfl, rfl, rfl⟩
  · -- nothing but characters without bytes stands between them
    obtain ⟨back, rfl⟩ := hfront
    refine ⟨upto ++ more, [], back, by rw [List.append_nil], rfl, ?_⟩
    rw [List.append_nil]
    rw [encode_append, List.length_append] at hle ⊢
    omega

/-- The bytes between two boundaries are those of a text. -/
theorem exists_encode_between {t : Text} {start stop : Nat} (hstart : IsBoundary t start)
    (hstop : IsBoundary t stop) (hle : start ≤ stop) :
    ∃ mid, ((encode t).drop start).take (stop - start) = encode mid ∧
      start + (encode mid).length = stop := by
  obtain ⟨front, mid, back, rfl, rfl, rfl⟩ := exists_between hstart hstop hle
  refine ⟨mid, ?_, ?_⟩
  · rw [List.append_assoc, encode_append front (mid ++ back), List.drop_left, encode_append front mid,
      List.length_append, Nat.add_sub_cancel_left, encode_append, List.take_left]
  · rw [encode_append, List.length_append]

end PatchLint.Utf8
