import PatchLint.Json.Printer
import PatchLint.Proofs.Json.Steps

/-!
# Strings that are written and read back

A string is written in ASCII: characters that have no place in a string are escaped by a letter, all others outside
of ASCII by their number, as a pair if it has more than four digits. The reader takes each escape for the character
again, if the string goes on behind it.

* `hex_four`, `readCode?_hex` — the code of four digits
* `readString_escapeChar` — one character
* `readString_escaped` — a string
-/

namespace PatchLint.Json

/-! ## Codes -/

/-- The last digit of a padded number, and the digits in front of it. -/
theorem hex_succ {width : Nat} (h : 0 < width) (n : Nat) :
    Text.hex (width + 1) n = Text.hex width (n / 16) ++ [(n % 16).digitChar] := by
  unfold Text.hex
  by_cases hn : n < 16
  · rw [Nat.toDigits_of_lt_base hn, Nat.div_eq_of_lt hn, Nat.mod_eq_of_lt hn, Nat.toDigits_zero]
    obtain ⟨k, rfl⟩ := Nat.exists_eq_add_one.mpr h
    exact congrArg (· ++ [n.digitChar]) List.replicate_succ'
  · rw [Nat.toDigits_eq_if (by decide), if_neg hn]
    dsimp only
    rw [List.length_append, List.length_singleton, Nat.add_sub_add_right, List.append_assoc]

/-- A code has four digits, with zeros in front. -/
theorem hex_four {n : Nat} (h : n < 0x10000) :
    Text.hex 4 n = [(n / 0x1000).digitChar, (n / 0x100 % 16).digitChar, (n / 0x10 % 16).digitChar,
      (n % 16).digitChar] := by
  have hfirst : Text.hex 1 (n / 16 / 16 / 16) = [(n / 0x1000).digitChar] := by
    rw [Nat.div_div_eq_div_mul, Nat.div_div_eq_div_mul, Text.hex, Nat.toDigits_of_lt_base (by omega)]
    rfl
  rw [hex_succ (by decide), hex_succ (by decide), hex_succ (by decide), hfirst, Nat.div_div_eq_div_mul]
  rfl

theorem length_hex_four {n : Nat} (h : n < 0x10000) : (Text.hex 4 n).length = 4 :=
  congrArg List.length (hex_four h)

theorem hexValue?_digitChar {d : Nat} (h : d < 16) : Text.hexValue? d.digitChar = some d := by
  have hall : ∀ e ∈ List.range 16, Text.hexValue? e.digitChar = some e := by decide
  exact hall d (List.mem_range.mpr h)

theorem readCode?_hex {n : Nat} (h : n < 0x10000) (t : Text) : readCode? (Text.hex 4 n ++ t) = some n := by
  rw [hex_four h]
  simp only [List.cons_append, readCode?, hexValue?_digitChar (show n / 0x1000 < 16 by omega),
    hexValue?_digitChar (Nat.mod_lt _ (by decide : 0 < 16)), Option.bind_eq_bind, Option.bind_some]
  refine congrArg some ?_
  omega

/-! ## Characters -/

/-- A character is no half of a pair. -/
theorem not_half_toNat (c : Char) : isHighHalf c.toNat = false ∧ isLowHalf c.toNat = false := by
  have hvalid : c.toNat < 0xD800 ∨ 0xDFFF < c.toNat ∧ c.toNat < 0x110000 := c.valid
  simp only [isHighHalf, isLowHalf, Bool.and_eq_false_iff, decide_eq_false_iff_not]
  omega

theorem charOfCode_toNat (c : Char) : charOfCode c.toNat = c := by
  rw [charOfCode, (not_half_toNat c).1, (not_half_toNat c).2]
  exact Char.ofNat_toNat c

/-- A pair of halves stands for the character that it has been made of. -/
theorem charOfPair_halves {c : Char} (h : 0x10000 ≤ c.toNat) :
    let n := c.toNat - 0x10000
    isHighHalf (0xD800 + n / 0x400) = true ∧ isLowHalf (0xDC00 + n % 0x400) = true ∧
      charOfPair (0xD800 + n / 0x400) (0xDC00 + n % 0x400) = c := by
  intro n
  have hvalid : c.toNat < 0xD800 ∨ 0xDFFF < c.toNat ∧ c.toNat < 0x110000 := c.valid
  have hcode : 0x10000 + (0xD800 + n / 0x400 - 0xD800) * 0x400 + (0xDC00 + n % 0x400 - 0xDC00) = c.toNat := by
    omega
  refine ⟨?_, ?_, ?_⟩
  · simp only [isHighHalf, Bool.and_eq_true, decide_eq_true_eq]
    omega
  · simp only [isLowHalf, Bool.and_eq_true, decide_eq_true_eq]
    omega
  · rw [charOfPair, hcode, Char.ofNat_toNat]

section Steps

variable (start seen : Text) {c : Char} {t : Text}

theorem readString_plain (hquote : c ≠ '"') (hslash : c ≠ '\\') (hcontrol : ¬c.toNat < 0x20) :
    readString start seen (c :: t) = readString start (c :: seen) t := by
  rw [readString, if_neg hquote, if_neg hslash, if_neg hcontrol]

theorem readString_letter {d : Char} (hd : d ≠ 'u') (h : simpleEscape? d = some c) :
    readString start seen ('\\' :: d :: t) = readString start (c :: seen) t := by
  rw [readString, if_neg (by decide), if_pos rfl, readEscape, if_neg hd, h]
  rfl

theorem readString_code {n : Nat} (h : readCodeEscape t = .ok (c, n)) :
    readString start seen ('\\' :: 'u' :: t) = readString start (c :: seen) (t.drop n) := by
  rw [readString, if_neg (by decide), if_pos rfl, readEscape, if_pos rfl, h]
  rfl

end Steps

/-- The code of a character is read as the character, if something follows it. -/
theorem readCodeEscape_hex {c : Char} (h : c.toNat < 0x10000) {t : Text} (ht : t ≠ []) :
    readCodeEscape (Text.hex 4 c.toNat ++ t) = .ok (c, 4) := by
  have hpartner : hasPartner c.toNat (Text.hex 4 c.toNat ++ t) = false := by
    rw [hasPartner, (not_half_toNat c).1]
    rfl
  refine readCodeEscape_eq_ok_iff.mpr ⟨?_, c.toNat, readCode?_hex h t, Or.inl ⟨hpartner, ?_, rfl⟩⟩
  · have hrest := List.length_pos_iff.mpr ht
    rw [List.length_append, length_hex_four h]
    omega
  · exact (charOfCode_toNat c).symm

theorem lt_of_isHighHalf {n : Nat} (h : isHighHalf n = true) : n < 0x10000 := by
  simp only [isHighHalf, Bool.and_eq_true, decide_eq_true_eq] at h
  omega

theorem lt_of_isLowHalf {n : Nat} (h : isLowHalf n = true) : n < 0x10000 := by
  simp only [isLowHalf, Bool.and_eq_true, decide_eq_true_eq] at h
  omega

/-- The codes of two halves are read as one character, if something follows them. -/
theorem readCodeEscape_halves {high low : Nat} (hhigh : isHighHalf high = true) (hlow : isLowHalf low = true)
    {t : Text} (ht : t ≠ []) :
    readCodeEscape (Text.hex 4 high ++ (codeEscape low ++ t)) = .ok (charOfPair high low, 10) := by
  have hhigh4 := lt_of_isHighHalf hhigh
  have hlow4 := lt_of_isLowHalf hlow
  have hlength := length_hex_four hhigh4
  have hrest : 0 < t.length := List.length_pos_iff.mpr ht
  have hsecond : (Text.hex 4 high ++ (codeEscape low ++ t)).drop 4
      = '\\' :: 'u' :: (Text.hex 4 low ++ t) := List.drop_left' hlength
  have hpartner : hasPartner high (Text.hex 4 high ++ (codeEscape low ++ t)) = true := by
    refine hasPartner_iff.mpr ⟨hhigh, _, hsecond, ?_⟩
    rw [List.length_append, length_hex_four hlow4]
    omega
  have hcode : readCode? ((Text.hex 4 high ++ (codeEscape low ++ t)).drop 6) = some low := by
    rw [← List.drop_drop (i := 2) (j := 4), hsecond]
    exact readCode?_hex hlow4 t
  refine readCodeEscape_eq_ok_iff.mpr ⟨?_, high, readCode?_hex hhigh4 _, Or.inr ⟨hpartner, low, hcode,
    Or.inr ⟨hlow, rfl, rfl⟩⟩⟩
  simp only [List.length_append, hlength]
  omega

theorem readString_halves (start seen : Text) {high low : Nat} (hhigh : isHighHalf high = true)
    (hlow : isLowHalf low = true) {t : Text} (ht : t ≠ []) :
    readString start seen (codeEscape high ++ (codeEscape low ++ t))
      = readString start (charOfPair high low :: seen) t := by
  have hlength : (Text.hex 4 high ++ codeEscape low).length = 10 := by
    rw [List.length_append, codeEscape, List.length_cons, List.length_cons,
      length_hex_four (lt_of_isHighHalf hhigh), length_hex_four (lt_of_isLowHalf hlow)]
  have hcode := readString_code start seen (readCodeEscape_halves hhigh hlow ht)
  rw [← List.append_assoc, List.drop_left' hlength] at hcode
  rw [← List.append_assoc]
  exact hcode

/-- The characters that are escaped by a letter. -/
def letteredChars : List Char := ['"', '\\', '\n', '\r', '\t', '\x0c', '\x08']

theorem escapeChar_of_lettered {c : Char} (h : c ∈ letteredChars) :
    ∃ d, d ≠ 'u' ∧ escapeChar c = ['\\', d] ∧ simpleEscape? d = some c := by
  simp only [letteredChars, List.mem_cons, List.not_mem_nil, or_false] at h
  rcases h with rfl | rfl | rfl | rfl | rfl | rfl | rfl
  all_goals exact ⟨_, by decide, rfl, rfl⟩

theorem escapeChar_of_not_lettered {c : Char} (h : c ∉ letteredChars) :
    escapeChar c =
      if 0x20 ≤ c.toNat ∧ c.toNat < 0x7F then [c]
      else if c.toNat < 0x10000 then codeEscape c.toNat
      else
        let n := c.toNat - 0x10000
        codeEscape (0xD800 + n / 0x400) ++ codeEscape (0xDC00 + n % 0x400) := by
  simp only [letteredChars, List.mem_cons, List.not_mem_nil, or_false, not_or] at h
  obtain ⟨h1, h2, h3, h4, h5, h6, h7⟩ := h
  rw [escapeChar, if_neg h1, if_neg h2, if_neg h3, if_neg h4, if_neg h5, if_neg h6, if_neg h7]

/-- A character is read back from its escape, if the string goes on. -/
theorem readString_escapeChar (start seen : Text) (c : Char) {t : Text} (ht : t ≠ []) :
    readString start seen (escapeChar c ++ t) = readString start (c :: seen) t := by
  by_cases hletter : c ∈ letteredChars
  · obtain ⟨d, hu, hescape, hsimple⟩ := escapeChar_of_lettered hletter
    rw [hescape]
    exact readString_letter start seen hu hsimple
  rw [escapeChar_of_not_lettered hletter]
  split
  · next hrange =>
    have hquote : c ≠ '"' := fun hc => hletter (hc ▸ by decide)
    have hslash : c ≠ '\\' := fun hc => hletter (hc ▸ by decide)
    exact readString_plain start seen hquote hslash (by omega)
  split
  · next hcode =>
    rw [codeEscape, List.cons_append, List.cons_append,
      readString_code start seen (readCodeEscape_hex hcode ht), List.drop_left' (length_hex_four hcode)]
  · next hcode =>
    obtain ⟨hhigh, hlow, hpair⟩ := charOfPair_halves (Nat.not_lt.mp hcode)
    have hread := readString_halves start seen hhigh hlow ht
    rw [hpair] at hread
    rwa [List.append_assoc]

/-- **A string is read back.** -/
theorem readString_escaped (start seen s rest : Text) :
    readString start seen (s.flatMap escapeChar ++ '"' :: rest) = .ok (seen.reverse ++ s, rest) := by
  induction s generalizing seen with
  | nil => rw [List.flatMap_nil, List.nil_append, readString, if_pos rfl, List.append_nil]
  | cons c s ih =>
    rw [List.flatMap_cons, List.append_assoc, readString_escapeChar start seen c (by simp), ih,
      List.reverse_cons, List.append_assoc, List.singleton_append]

end PatchLint.Json
