import PatchLint.Text.Utf8

/-!
# Decoding is exact

A byte sequence that can be decoded is the encoding of its text (`encode_of_decode`). Every character has
one encoding only: after the first bytes that could also start a longer form than needed, the range of
the next byte is narrower.

* `readTail_zero`, `exists_of_readTail_succ` — the bytes that are owed, one by one
* `encodeChar_of_unit` — a unit is the encoding of its character, by the number of its bytes
* `byte_mem_encode_iff` — a byte below `80` occurs only as the character it stands for
-/

namespace PatchLint.Utf8

theorem toNat_ofNat {n : Nat} (h : n.isValidChar) : (Char.ofNat n).toNat = n := by
  rw [Char.ofNat, dif_pos h]
  rfl

/-- The numbers of characters are below `110000` and leave out the surrogates. -/
theorem isValidChar_toNat (c : Char) : c.toNat.isValidChar := c.valid

theorem byte_eq {n : Nat} {b : UInt8} (h : n = b.toNat) : byte n = b := by
  rw [h]
  exact UInt8.ofNat_toNat

/-! ## Units -/

/-- When no more bytes are owed, the bits are those of the character. -/
theorem readTail_zero (bits taken lo hi : Nat) (bs : List UInt8) :
    readTail bits 0 taken lo hi bs = .char (Char.ofNat bits) taken := by
  cases bs with
  | nil => rfl
  | cons b bs => rfl

theorem eq_of_readTail_zero {bits taken lo hi extra : Nat} {bs : List UInt8} {c : Char}
    (h : readTail bits 0 taken lo hi bs = .char c extra) : c = Char.ofNat bits ∧ extra = taken := by
  rw [readTail_zero] at h
  cases h
  exact ⟨rfl, rfl⟩

/-- A byte that is owed lies in its range and adds six bits. -/
theorem exists_of_readTail_succ {bits left taken lo hi extra : Nat} {bs : List UInt8} {c : Char}
    (h : readTail bits (left + 1) taken lo hi bs = .char c extra) :
    ∃ b rest, bs = b :: rest ∧ lo ≤ b.toNat ∧ b.toNat ≤ hi ∧
      readTail (bits * 0x40 + (b.toNat - 0x80)) left (taken + 1) 0x80 0xBF rest = .char c extra := by
  cases bs with
  | nil => cases h
  | cons b rest =>
    rw [readTail] at h
    by_cases hrange : lo ≤ b.toNat ∧ b.toNat ≤ hi
    · rw [if_pos hrange] at h
      exact ⟨b, rest, rfl, hrange.1, hrange.2, h⟩
    · rw [if_neg hrange] at h
      cases h

/-- A unit of one byte. -/
theorem encodeChar_one {b : UInt8} {bs : List UInt8} {c : Char} {lo hi extra : Nat}
    (h : readTail b.toNat 0 0 lo hi bs = .char c extra) (hb : b.toNat < 0x80) :
    encodeChar c = b :: bs.take extra := by
  obtain ⟨rfl, rfl⟩ := eq_of_readTail_zero h
  rw [encodeChar, toNat_ofNat (Or.inl (by omega)), if_pos hb, byte_eq rfl, List.take_zero]

/-- A unit of two bytes. -/
theorem encodeChar_two {b : UInt8} {bs : List UInt8} {c : Char} {lead extra : Nat}
    (h : readTail lead 1 0 0x80 0xBF bs = .char c extra) (hb : b.toNat = 0xC0 + lead)
    (hlead : 2 ≤ lead ∧ lead < 0x20) : encodeChar c = b :: bs.take extra := by
  obtain ⟨b₁, bs, rfl, hlo, hhi, h⟩ := exists_of_readTail_succ h
  obtain ⟨hc, hextra⟩ := eq_of_readTail_zero h
  rw [hc, hextra, encodeChar, toNat_ofNat (Or.inl (by omega)), if_neg (by omega), if_pos (by omega)]
  rw [byte_eq (b := b) (by omega), byte_eq (b := b₁) (by omega)]
  rfl

/-- A unit of three bytes. The range of the second byte excludes what fits into two bytes, and the
surrogates. -/
theorem encodeChar_three {b : UInt8} {bs : List UInt8} {c : Char} {lead lo hi extra : Nat}
    (h : readTail lead 2 0 lo hi bs = .char c extra) (hb : b.toNat = 0xE0 + lead)
    (hlead : lead < 0x10) (hlo : 0x80 ≤ lo) (hhi : hi ≤ 0xBF) (hlong : lead = 0 → 0xA0 ≤ lo)
    (hsurrogate : lead = 0xD → hi ≤ 0x9F) : encodeChar c = b :: bs.take extra := by
  obtain ⟨b₁, bs, rfl, hlo₁, hhi₁, h⟩ := exists_of_readTail_succ h
  obtain ⟨b₂, bs, rfl, hlo₂, hhi₂, h⟩ := exists_of_readTail_succ h
  obtain ⟨hc, hextra⟩ := eq_of_readTail_zero h
  rw [hc, hextra, encodeChar, toNat_ofNat (by unfold Nat.isValidChar; omega), if_neg (by omega),
    if_neg (by omega), if_pos (by omega)]
  rw [byte_eq (b := b) (by omega), byte_eq (b := b₁) (by omega), byte_eq (b := b₂) (by omega)]
  rfl

/-- A unit of four bytes. The range of the second byte excludes what fits into three bytes, and what is
past the last character. -/
theorem encodeChar_four {b : UInt8} {bs : List UInt8} {c : Char} {lead lo hi extra : Nat}
    (h : readTail lead 3 0 lo hi bs = .char c extra) (hb : b.toNat = 0xF0 + lead)
    (hlead : lead ≤ 4) (hlo : 0x80 ≤ lo) (hhi : hi ≤ 0xBF) (hlong : lead = 0 → 0x90 ≤ lo)
    (hlast : lead = 4 → hi ≤ 0x8F) : encodeChar c = b :: bs.take extra := by
  obtain ⟨b₁, bs, rfl, hlo₁, hhi₁, h⟩ := exists_of_readTail_succ h
  obtain ⟨b₂, bs, rfl, hlo₂, hhi₂, h⟩ := exists_of_readTail_succ h
  obtain ⟨b₃, bs, rfl, hlo₃, hhi₃, h⟩ := exists_of_readTail_succ h
  obtain ⟨hc, hextra⟩ := eq_of_readTail_zero h
  rw [hc, hextra, encodeChar, toNat_ofNat (by unfold Nat.isValidChar; omega), if_neg (by omega),
    if_neg (by omega), if_neg (by omega)]
  rw [byte_eq (b := b) (by omega), byte_eq (b := b₁) (by omega), byte_eq (b := b₂) (by omega),
    byte_eq (b := b₃) (by omega)]
  rfl

/-- What the first byte of a unit says, by the number of bytes that follow. -/
theorem lead?_cases {b : Nat} {l : Lead} (h : lead? b = some l) :
    (l.following = 0 ∧ l.bits = b ∧ b < 0x80) ∨
    (l.following = 1 ∧ b = 0xC0 + l.bits ∧ (2 ≤ l.bits ∧ l.bits < 0x20) ∧ l.lo = 0x80 ∧ l.hi = 0xBF) ∨
    (l.following = 2 ∧ b = 0xE0 + l.bits ∧ l.bits < 0x10 ∧ 0x80 ≤ l.lo ∧ l.hi ≤ 0xBF ∧
      (l.bits = 0 → 0xA0 ≤ l.lo) ∧ (l.bits = 0xD → l.hi ≤ 0x9F)) ∨
    (l.following = 3 ∧ b = 0xF0 + l.bits ∧ l.bits ≤ 4 ∧ 0x80 ≤ l.lo ∧ l.hi ≤ 0xBF ∧
      (l.bits = 0 → 0x90 ≤ l.lo) ∧ (l.bits = 4 → l.hi ≤ 0x8F)) := by
  unfold lead? at h
  repeat' split at h
  all_goals simp only [Option.some.injEq, reduceCtorEq] at h
  all_goals rw [← h]; dsimp only; omega

/-- **A unit is the encoding of its character.** -/
theorem encodeChar_of_unit {b : UInt8} {bs : List UInt8} {c : Char} {extra : Nat}
    (h : unit b bs = .char c extra) : encodeChar c = b :: bs.take extra := by
  rw [unit] at h
  cases hlead : lead? b.toNat with
  | none => rw [hlead] at h; cases h
  | some l =>
    rw [hlead] at h
    dsimp only at h
    rcases lead?_cases hlead with ⟨hcount, hbits, hb⟩ | ⟨hcount, hb, hbits, hlo, hhi⟩
      | ⟨hcount, hb, hbits, hlo, hhi, hlong, hsurrogate⟩ | ⟨hcount, hb, hbits, hlo, hhi, hlong, hlast⟩
    · rw [hcount, hbits] at h
      exact encodeChar_one h hb
    · rw [hcount, hlo, hhi] at h
      exact encodeChar_two h hb hbits
    · rw [hcount] at h
      exact encodeChar_three h hb hbits hlo hhi hlong hsurrogate
    · rw [hcount] at h
      exact encodeChar_four h hb hbits hlo hhi hlong hlast

/-! ## Texts -/

theorem encode_of_decodeFrom {position : Nat} {bytes : List UInt8} {t : Text}
    (h : decodeFrom position bytes = .ok t) : encode t = bytes := by
  fun_induction decodeFrom position bytes generalizing t with
  | case1 position =>
    cases h
    rfl
  | case2 => cases h
  | case3 => cases h
  | case4 position b bs c extra hunit rest hrest ih =>
    cases h
    rw [encode_cons, encodeChar_of_unit hunit, ih hrest, List.cons_append, List.take_append_drop]

/-- **Bytes that can be decoded are the encoding of their text.** -/
theorem encode_of_decode {bytes : List UInt8} {t : Text} (h : decode bytes = .ok t) :
    encode t = bytes :=
  encode_of_decodeFrom h

/-! ## Single bytes -/

theorem toNat_byte {n : Nat} (h : n < 0x100) : (byte n).toNat = n := by
  rw [byte, UInt8.toNat_ofNat', Nat.mod_eq_of_lt h]

theorem encodeChar_of_lt {c : Char} (h : c.toNat < 0x80) : encodeChar c = [byte c.toNat] := by
  rw [encodeChar, if_pos h]

/-- No byte of a longer form is one that stands for a character by itself. -/
theorem le_of_mem_encodeChar {c : Char} (h : 0x80 ≤ c.toNat) {b : UInt8} (hb : b ∈ encodeChar c) :
    0x80 ≤ b.toNat := by
  have hmax : c.toNat < 0x110000 := by
    have hvalid := isValidChar_toNat c
    unfold Nat.isValidChar at hvalid
    omega
  have hbyte {n : Nat} (hlo : 0x80 ≤ n) (hhi : n < 0x100) : 0x80 ≤ (byte n).toNat := by
    rw [toNat_byte hhi]
    exact hlo
  unfold encodeChar at hb
  dsimp only at hb
  rw [if_neg (by omega)] at hb
  split at hb
  · simp only [List.mem_cons, List.not_mem_nil, or_false] at hb
    rcases hb with rfl | rfl
    · exact hbyte (by omega) (by omega)
    · exact hbyte (by omega) (by omega)
  split at hb
  · simp only [List.mem_cons, List.not_mem_nil, or_false] at hb
    rcases hb with rfl | rfl | rfl
    · exact hbyte (by omega) (by omega)
    · exact hbyte (by omega) (by omega)
    · exact hbyte (by omega) (by omega)
  · simp only [List.mem_cons, List.not_mem_nil, or_false] at hb
    rcases hb with rfl | rfl | rfl | rfl
    · exact hbyte (by omega) (by omega)
    · exact hbyte (by omega) (by omega)
    · exact hbyte (by omega) (by omega)
    · exact hbyte (by omega) (by omega)

/-- **A byte that stands for a character by itself occurs only as this character.** -/
theorem byte_mem_encode_iff {c : Char} (hc : c.toNat < 0x80) {t : Text} :
    byte c.toNat ∈ encode t ↔ c ∈ t := by
  have hvalue : (byte c.toNat).toNat = c.toNat := toNat_byte (by omega)
  rw [encode, List.mem_flatMap]
  constructor
  · rintro ⟨c', hc', hmem⟩
    by_cases hshort : c'.toNat < 0x80
    · rw [encodeChar_of_lt hshort, List.mem_singleton] at hmem
      have heq := congrArg UInt8.toNat hmem
      rw [hvalue, toNat_byte (by omega)] at heq
      rwa [Char.toNat_inj.mp heq]
    · have hle := le_of_mem_encodeChar (Nat.le_of_not_lt hshort) hmem
      omega
  · intro hmem
    refine ⟨c, hmem, ?_⟩
    rw [encodeChar_of_lt hc]
    exact List.mem_singleton_self _

end PatchLint.Utf8
