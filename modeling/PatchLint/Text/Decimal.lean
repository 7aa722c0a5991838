import PatchLint.Text.Basic

/-!
# Decimal numerals

`ofNat` writes a number in base ten without leading zeros, and `value` reads a run of decimal
digits. Digits of every script count when reading: each script has its ten digits in one run of
code points, and `digitZeros` lists where these runs start.

A number of more than `digitLimit` digits is not converted from text, leading zeros included. `value`
itself knows no such limit; readers look at the number of digits first. Writing has no limit here: the
numbers that are written count characters, lines and findings, and a text long enough for a number of so
many digits cannot be held.
-/

namespace PatchLint.Text

/-- The code points of the digit zero of every script. -/
def digitZeros : List Nat :=
  [0x30, 0x660, 0x6F0, 0x7C0, 0x966, 0x9E6, 0xA66, 0xAE6, 0xB66, 0xBE6, 0xC66, 0xCE6, 0xD66, 0xDE6,
   0xE50, 0xED0, 0xF20, 0x1040, 0x1090, 0x17E0, 0x1810, 0x1946, 0x19D0, 0x1A80, 0x1A90, 0x1B50,
   0x1BB0, 0x1C40, 0x1C50, 0xA620, 0xA8D0, 0xA900, 0xA9D0, 0xA9F0, 0xAA50, 0xABF0, 0xFF10, 0x104A0,
   0x10D30, 0x11066, 0x110F0, 0x11136, 0x111D0, 0x112F0, 0x11450, 0x114D0, 0x11650, 0x116C0,
   0x11730, 0x118E0, 0x11950, 0x11C50, 0x11D50, 0x11DA0, 0x16A60, 0x16AC0, 0x16B50, 0x1D7CE,
   0x1D7D8, 0x1D7E2, 0x1D7EC, 0x1D7F6, 0x1E140, 0x1E2F0, 0x1E950, 0x1FBF0]

/-- The value of a decimal digit of any script. -/
def digitValue? (c : Char) : Option Nat :=
  (digitZeros.find? fun z => z ≤ c.toNat && c.toNat < z + 10).map (c.toNat - ·)

/-- Whether a character is a decimal digit of some script. -/
def isDigit (c : Char) : Bool := (digitValue? c).isSome

/-- The number a run of digits stands for. A character that is no digit counts as zero. -/
def value (ds : Text) : Nat := ds.foldl (fun n c => 10 * n + (digitValue? c).getD 0) 0

/-- The most digits that a number is converted from. -/
def digitLimit : Nat := 4300

/-- A power of ten: the least number that has more than so many digits. It is not to be evaluated where the
exponent is `digitLimit`. -/
@[irreducible]
def powerOfTen (k : Nat) : Nat := Nat.pow 10 k

/-- How many digits a run of ASCII digits has without leading zeros. -/
def significantDigits (ds : Text) : Nat := (ds.dropWhile (· = '0')).length

/-- The ASCII digit of a number below ten. -/
def digitChar (d : Nat) : Char := Char.ofNat (0x30 + d)

/-- A number in base ten, without leading zeros. -/
def ofNat (n : Nat) : Text :=
  if n < 10 then [digitChar n] else ofNat (n / 10) ++ [digitChar (n % 10)]
termination_by n

/-- An integer in base ten, with a sign only if it is negative. -/
def ofInt : Int → Text
  | .ofNat n => ofNat n
  | .negSucc n => '-' :: ofNat (n + 1)

theorem digitValue?_digitChar {d : Nat} (h : d < 10) : digitValue? (digitChar d) = some d := by
  have hall : ∀ e ∈ List.range 10, digitValue? (digitChar e) = some e := by decide
  exact hall d (List.mem_range.mpr h)

theorem value_append_one (ds : Text) (c : Char) :
    value (ds ++ [c]) = 10 * value ds + (digitValue? c).getD 0 := by
  simp [value, List.foldl_append]

/-- Reading a written number gives it back. -/
theorem value_ofNat (n : Nat) : value (ofNat n) = n := by
  fun_induction ofNat n with
  | case1 n h => simp [value, digitValue?_digitChar h]
  | case2 n h ih =>
    rw [value_append_one, ih, digitValue?_digitChar (by omega)]
    simp only [Option.getD_some]
    omega

theorem length_ofNat_pos (n : Nat) : 0 < (ofNat n).length := by
  rw [ofNat]
  split <;> simp

theorem powerOfTen_zero : powerOfTen 0 = 1 := by rw [powerOfTen]

theorem powerOfTen_succ (k : Nat) : powerOfTen (k + 1) = powerOfTen k * 10 := by
  rw [powerOfTen, powerOfTen]
  rfl

theorem powerOfTen_pos (k : Nat) : 0 < powerOfTen k := by
  rw [powerOfTen]
  exact Nat.pow_pos (by decide)

theorem one_lt_powerOfTen {k : Nat} (hk : 0 < k) : 1 < powerOfTen k := by
  rw [powerOfTen]
  exact Nat.one_lt_pow (Nat.ne_of_gt hk) (by decide)

/-- A number has no more digits than a power of ten above it has zeros. -/
theorem length_ofNat_le_iff {n k : Nat} (hk : 0 < k) : (ofNat n).length ≤ k ↔ n < powerOfTen k := by
  obtain ⟨k, rfl⟩ := Nat.exists_eq_add_one.mpr hk
  rw [powerOfTen_succ]
  fun_induction ofNat n generalizing k with
  | case1 n hn =>
    have hpos := powerOfTen_pos k
    exact iff_of_true (Nat.succ_le_succ (Nat.zero_le k)) (by omega)
  | case2 n hn ih =>
    rw [List.length_append, List.length_singleton, Nat.add_le_add_iff_right, ← Nat.div_lt_iff_lt_mul (by decide)]
    cases k with
    | zero =>
      have hlong := length_ofNat_pos (n / 10)
      rw [powerOfTen_zero]
      exact iff_of_false (by omega) (by omega)
    | succ k =>
      rw [powerOfTen_succ]
      exact ih k (Nat.succ_pos k)

/-- A number as a string. -/
def showNat (n : Nat) : String := String.ofList (ofNat n)

/-- An integer as a string. -/
def showInt (n : Int) : String := String.ofList (ofInt n)

/-- Hexadecimal digits in lower case, the number padded with zeros to `width` digits. -/
def hex (width n : Nat) : Text :=
  let ds := Nat.toDigits 16 n
  List.replicate (width - ds.length) '0' ++ ds

/-- The value of a hexadecimal digit. -/
def hexValue? (c : Char) : Option Nat :=
  if '0' ≤ c ∧ c ≤ '9' then some (c.toNat - 0x30)
  else if 'a' ≤ c ∧ c ≤ 'f' then some (c.toNat - 0x57)
  else if 'A' ≤ c ∧ c ≤ 'F' then some (c.toNat - 0x37)
  else none

end PatchLint.Text
