import PatchLint.Number.Binary64
import PatchLint.Text.Decimal

/-!
# Numerals of floating point numbers

The text of a number has two parts. The *digits* are the fewest that read back as the same number
(`shortest`): for one digit, two digits and so on up to seventeen, the two neighbours of the number
on that decimal grid are tested against the interval of reals that round to it, and the first grid
with a hit wins; of two hits the nearer one, and the even one on a tie. The *layout* decides how the
digits are written: `NumeralFormat` is the record of these decisions.
-/

namespace PatchLint

namespace Binary64

/-- A decimal `digits * 10 ^ exponent`. -/
structure Scientific where
  digits : Nat
  exponent : Int
  deriving DecidableEq, Repr

/-- A positive number with the interval of reals that round to it. All three bounds are multiples of
`scale / unit`; the ends belong to the interval if `closed`. -/
structure Interval where
  low : Nat
  mid : Nat
  high : Nat
  scale : Nat
  unit : Nat
  closed : Bool

/-- The interval of `mantissa * 2 ^ exponent`. The gap below a power of two is half as wide. -/
def interval (mantissa : Nat) (exponent : Int) : Interval where
  low := 4 * mantissa -
    (if mantissa = Nat.pow 2 (precision - 1) ∧ minExponent < exponent then 1 else 2)
  mid := 4 * mantissa
  high := 4 * mantissa + 2
  scale := Nat.pow 2 (exponent - 2).toNat
  unit := Nat.pow 2 (2 - exponent).toNat
  closed := mantissa % 2 = 0

/-- Compares `digits * 10 ^ exponent` with a bound of the interval. -/
def Interval.compare (i : Interval) (d : Scientific) (bound : Nat) : Ordering :=
  if 0 ≤ d.exponent then
    Ord.compare (d.digits * Nat.pow 10 d.exponent.toNat * i.unit) (bound * i.scale)
  else
    Ord.compare (d.digits * i.unit) (bound * i.scale * Nat.pow 10 (-d.exponent).toNat)

/-- Whether a decimal rounds to the number. -/
def Interval.holds (i : Interval) (d : Scientific) : Bool :=
  let lower := i.compare d i.low
  let upper := i.compare d i.high
  (lower == .gt || (i.closed && lower == .eq)) && (upper == .lt || (i.closed && upper == .eq))

/-- The position of the decimal point: the number lies between `10 ^ (p - 1)` and `10 ^ p`. -/
def Interval.point (i : Interval) : Int :=
  let num := i.mid * i.scale
  if i.unit ≤ num then ((Text.ofNat (num / i.unit)).length : Int)
  else 1 - ((Text.ofNat (i.unit / num)).length : Int)

/-- The greatest multiple of `10 ^ exponent` that is not above the number. -/
def Interval.floorAt (i : Interval) (exponent : Int) : Nat :=
  if 0 ≤ exponent then i.mid * i.scale / (i.unit * Nat.pow 10 exponent.toNat)
  else i.mid * i.scale * Nat.pow 10 (-exponent).toNat / i.unit

/-- Which of `d` and `d + 1` is nearer to the number: `d` counts as nearer on a tie if it is even.
The number is compared with the middle of the two, `(10 * d + 5) * 10 ^ (exponent - 1)`. -/
def Interval.nearer (i : Interval) (d : Nat) (exponent : Int) : Nat :=
  match i.compare ⟨10 * d + 5, exponent - 1⟩ i.mid with
  | .gt => d
  | .lt => d + 1
  | .eq => if d % 2 = 0 then d else d + 1

/-- The decimal of this many digits that rounds to the number, if there is one. -/
def Interval.withDigits? (i : Interval) (count : Nat) : Option Scientific :=
  let exponent := i.point - count
  let d := i.floorAt exponent
  match i.holds ⟨d, exponent⟩, i.holds ⟨d + 1, exponent⟩ with
  | true, true => some ⟨i.nearer d exponent, exponent⟩
  | true, false => some ⟨d, exponent⟩
  | false, true => some ⟨d + 1, exponent⟩
  | false, false => none

/-- The decimal with the fewest digits that rounds to the positive number `mantissa * 2 ^ exponent`.
Seventeen digits always suffice. -/
def shortest (mantissa : Nat) (exponent : Int) : Scientific :=
  let i := interval mantissa exponent
  ((List.range 17).findSome? fun n => i.withDigits? (n + 1)).getD ⟨mantissa, exponent⟩

end Binary64

/-- How numbers are laid out. Digits are written positionally if the decimal point falls after
`least` and not after `most`; otherwise one digit stands in front of the point and an exponent
follows, with its sign and at least `exponentWidth` digits. -/
structure NumeralFormat where
  least : Int
  most : Int
  exponentWidth : Nat
  whole : Text
  infinity : Text
  notANumber : Text

namespace NumeralFormat

/-- The digits of an exponent, padded with zeros. -/
def exponentText (f : NumeralFormat) (e : Int) : Text :=
  let ds := Text.ofNat e.natAbs
  (if e < 0 then '-' else '+') :: Text.repeated '0' (f.exponentWidth - ds.length) ++ ds

/-- Lays out digits with the decimal point after the first `point` of them. -/
def layout (f : NumeralFormat) (ds : Text) (point : Int) : Text :=
  if f.least < point ∧ point ≤ f.most then
    if point ≤ 0 then '0' :: '.' :: Text.repeated '0' (-point).toNat ++ ds
    else if point.toNat < ds.length then ds.take point.toNat ++ '.' :: ds.drop point.toNat
    else ds ++ Text.repeated '0' (point.toNat - ds.length) ++ f.whole
  else
    let tail := ds.drop 1
    ds.take 1 ++ (if tail.isEmpty then [] else '.' :: tail) ++ 'e' :: f.exponentText (point - 1)

/-- The text of a positive number given by mantissa and exponent. -/
def positive (f : NumeralFormat) (m : Nat) (e : Int) : Text :=
  let d := Binary64.shortest m e
  let ds := Text.ofNat d.digits
  f.layout (Text.trimEnd (· = '0') ds) (d.exponent + ds.length)

/-- The text of a number. -/
def render (f : NumeralFormat) : Binary64 → Text
  | .nan => f.notANumber
  | .infinite negative => (if negative then ['-'] else []) ++ f.infinity
  | .finite negative m e =>
    (if negative then ['-'] else []) ++ (if m = 0 then '0' :: f.whole else f.positive m e)

/-- Numbers in messages: positional from `0.0001` up to sixteen digits, a whole number ends in
`.0`, and an exponent has at least two digits. -/
def plain : NumeralFormat where
  least := -4
  most := 16
  exponentWidth := 2
  whole := ['.', '0']
  infinity := "inf".toList
  notANumber := "nan".toList

/-- Numbers in JSON texts: as in messages, but with the names for infinity and not-a-number that
scripts use. -/
def json : NumeralFormat :=
  { plain with infinity := "Infinity".toList, notANumber := "NaN".toList }

end NumeralFormat

end PatchLint
