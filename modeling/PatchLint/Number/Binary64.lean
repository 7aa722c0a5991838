/-!
# Binary floating point

Numbers of 53 bits of precision, as exact values: a finite number is `mantissa * 2 ^ exponent`.
A quotient is rounded to the nearest such number, ties to the even mantissa (`ofRatio`), and every
other way of making a number goes through it. Everything is done in exact integer arithmetic.

Normal form: the mantissa is below `2 ^ 53`, and it is at least `2 ^ 52` unless the exponent is the
least one, `-1074`.
-/

namespace PatchLint

/-- A binary floating point number. -/
inductive Binary64 where
  | nan
  | infinite (negative : Bool)
  | finite (negative : Bool) (mantissa : Nat) (exponent : Int)
  deriving DecidableEq, Repr

namespace Binary64

/-- The number of bits of a full mantissa. -/
def precision : Nat := 53

/-- The least exponent. -/
def minExponent : Int := -1074

/-- The greatest exponent. -/
def maxExponent : Int := 971

/-- The integer nearest to `num / den`, an even one on a tie. -/
def roundDiv (num den : Nat) : Nat :=
  let q := num / den
  let r := num % den
  if 2 * r < den then q
  else if den < 2 * r then q + 1
  else if q % 2 = 0 then q else q + 1

/-- The integer nearest to `num / den / 2 ^ e`. -/
def roundScaled (num den : Nat) (e : Int) : Nat :=
  if 0 ≤ e then roundDiv num (den * Nat.pow 2 e.toNat)
  else roundDiv (num * Nat.pow 2 (-e).toNat) den

/-- Whether `num / den < 2 ^ e`. -/
def belowPower (num den : Nat) (e : Int) : Bool :=
  if 0 ≤ e then num < den * Nat.pow 2 e.toNat else num * Nat.pow 2 (-e).toNat < den

/-- The greatest `e` with `2 ^ e ≤ num / den`, for positive `num` and `den`. -/
def floorLog2 (num den : Nat) : Int :=
  let e : Int := num.log2 - den.log2
  if belowPower num den e then e - 1 else e

/-- The number with this sign, mantissa and exponent, or an infinity if it is too large. A mantissa
that rounding has made one bit too long is halved. -/
def make (negative : Bool) (mantissa : Nat) (exponent : Int) : Binary64 :=
  let (m, e) :=
    if mantissa = Nat.pow 2 precision then (Nat.pow 2 (precision - 1), exponent + 1)
    else (mantissa, exponent)
  if maxExponent < e then .infinite negative else .finite negative m e

/-- The number nearest to `num / den`. -/
def ofRatio (negative : Bool) (num den : Nat) : Binary64 :=
  if num = 0 then .finite negative 0 minExponent
  else
    let e := max (floorLog2 num den - (precision - 1 : Nat)) minExponent
    make negative (roundScaled num den e) e

/-- The number nearest to `digits * 10 ^ exponent`, where `digits` has `count` decimal digits without leading
zeros. Numbers far outside the range are recognised by their size alone. -/
def ofDecimal (negative : Bool) (digits count : Nat) (exponent : Int) : Binary64 :=
  if digits = 0 then .finite negative 0 minExponent
  else if 400 < count + exponent then .infinite negative
  else if count + exponent < -400 then .finite negative 0 minExponent
  else if 0 ≤ exponent then ofRatio negative (digits * Nat.pow 10 exponent.toNat) 1
  else ofRatio negative digits (Nat.pow 10 (-exponent).toNat)

/-- The number nearest to an integer, unless the integer is too large. -/
def ofInt? (n : Int) : Option Binary64 :=
  match ofRatio (decide (n < 0)) n.natAbs 1 with
  | .finite negative m e => some (.finite (negative && m != 0) m e)
  | _ => none

/-- Whether the number is zero or negative. This is false of a number that is not comparable. -/
def atMostZero : Binary64 → Bool
  | .nan => false
  | .infinite negative => negative
  | .finite negative m _ => negative || m == 0

end Binary64

end PatchLint
