import PatchLint.Config.Value
import PatchLint.Text.Decimal

/-!
# TOML numbers, dates and times

Integers in four bases, floating point numbers, dates, times and both together. Of dates and times
only the kind is kept, but they have to exist.
-/

namespace PatchLint.Toml

/-- A decimal digit. -/
def isDigit (c : Char) : Bool := '0' ≤ c && c ≤ '9'

/-! ## Dates and times -/

/-- A number of exactly `count` digits. -/
def fixedNumber? (count : Nat) (t : Text) : Option (Nat × Text) :=
  let ds := t.take count
  if ds.length = count && ds.all isDigit then some (Text.value ds, t.drop count) else none

/-- A number of exactly `count` digits within bounds. -/
def boundedNumber? (count lo hi : Nat) (t : Text) : Option (Nat × Text) :=
  (fixedNumber? count t).filter fun (n, _) => lo ≤ n && n ≤ hi

/-- Takes one character off the input. -/
def char? (p : Char → Bool) (t : Text) : Option Text :=
  match t with
  | c :: cs => if p c then some cs else none
  | [] => none

/-- The rest after an optional fraction of a second. -/
def skipFraction (t : Text) : Text :=
  match t with
  | '.' :: cs => if (cs.takeWhile isDigit).isEmpty then t else cs.dropWhile isDigit
  | _ => t

/-- The rest after a time of day. -/
def time? (t : Text) : Option Text := do
  let (_, t) ← boundedNumber? 2 0 23 t
  let t ← char? (· = ':') t
  let (_, t) ← boundedNumber? 2 0 59 t
  let t ← char? (· = ':') t
  let (_, t) ← boundedNumber? 2 0 59 t
  pure (skipFraction t)

/-- The rest after an offset from universal time. -/
def offset? (t : Text) : Option Text :=
  match t with
  | 'Z' :: cs | 'z' :: cs => some cs
  | _ => do
    let t ← char? (fun c => c = '+' || c = '-') t
    let (_, t) ← boundedNumber? 2 0 23 t
    let t ← char? (· = ':') t
    let (_, t) ← boundedNumber? 2 0 59 t
    pure t

/-- Year, month and day, and the rest. -/
def date? (t : Text) : Option (Nat × Nat × Nat × Text) := do
  let (year, t) ← fixedNumber? 4 t
  let t ← char? (· = '-') t
  let (month, t) ← boundedNumber? 2 1 12 t
  let t ← char? (· = '-') t
  let (day, t) ← boundedNumber? 2 1 31 t
  pure (year, month, day, t)

/-- The number of days of a month. -/
def daysOf (year month : Nat) : Nat :=
  if month = 2 then
    if year % 4 = 0 ∧ (year % 100 ≠ 0 ∨ year % 400 = 0) then 29 else 28
  else if month = 4 ∨ month = 6 ∨ month = 9 ∨ month = 11 then 30
  else 31

/-- The rest after a separator and a time, with an optional offset, behind a date. -/
def timeOfDate? (t : Text) : Option Text := do
  let t ← char? (fun c => c = 'T' || c = 't' || c = ' ') t
  let t ← time? t
  pure ((offset? t).getD t)

/-- A date, with or without a time, or a time. The outer `none` says that there is none of these, the
inner one that the date does not exist. -/
def moment? (t : Text) : Option (Option (Value × Text)) :=
  match date? t with
  | some (year, month, day, rest) =>
    if 1 ≤ year ∧ day ≤ daysOf year month then
      match timeOfDate? rest with
      | some rest => some (some (.moment .datetime, rest))
      | none => some (some (.moment .date, rest))
    else some none
  | none => (time? t).map fun rest => some (.moment .time, rest)

/-! ## Numbers -/

/-- More digits of a run, and the rest. A single underscore may stand in front of a digit. -/
def moreDigits (p : Char → Bool) : Text → Text × Text
  | [] => ([], [])
  | [c] => if p c then ([c], []) else ([], [c])
  | c :: d :: ds =>
    if p c then
      let (run, rest) := moreDigits p (d :: ds)
      (c :: run, rest)
    else if c = '_' && p d then
      let (run, rest) := moreDigits p ds
      (d :: run, rest)
    else ([], c :: d :: ds)

/-- The digits of a run without the underscores between them, and the rest. The run is empty if the
input does not start with a digit. -/
def digitRun (p : Char → Bool) (t : Text) : Text × Text :=
  match t with
  | [] => ([], [])
  | c :: cs =>
    if p c then
      let (run, rest) := moreDigits p cs
      (c :: run, rest)
    else ([], t)

/-- The value of digits in a base. -/
def valueIn (base : Nat) (ds : Text) : Nat :=
  ds.foldl (fun n c => base * n + (Text.hexValue? c).getD 0) 0

/-- The base that a letter behind a leading zero stands for. -/
def baseOf? (c : Char) : Option Nat :=
  if c = 'x' then some 16 else if c = 'o' then some 8 else if c = 'b' then some 2 else none

/-- Whether a character is a digit of a base. -/
def isDigitIn (base : Nat) (c : Char) : Bool :=
  match Text.hexValue? c with
  | some d => d < base
  | none => false

/-- An integer in another base, with its mark. -/
def basedInteger? (t : Text) : Option (Value × Text) :=
  match t with
  | '0' :: c :: cs =>
    match baseOf? c with
    | none => none
    | some base =>
      let (run, rest) := digitRun (isDigitIn base) cs
      if run.isEmpty then none else some (.int (valueIn base run), rest)
  | _ => none

/-- An optional sign: whether it is a minus, and the rest. -/
def sign (t : Text) : Bool × Text :=
  match t with
  | '-' :: cs => (true, cs)
  | '+' :: cs => (false, cs)
  | cs => (false, cs)

/-- The digits in front of the point. A leading zero stands alone. -/
def wholePart? (t : Text) : Option (Text × Text) :=
  match t with
  | '0' :: cs => some (['0'], cs)
  | _ =>
    let (run, rest) := digitRun isDigit t
    if run.isEmpty then none else some (run, rest)

/-- The digits behind the point, if there are any. -/
def fractionPart? (t : Text) : Option (Text × Text) :=
  match t with
  | '.' :: cs =>
    let (run, rest) := digitRun isDigit cs
    if run.isEmpty then none else some (run, rest)
  | _ => none

/-- The exponent, if there is one. -/
def exponentPart? (t : Text) : Option (Int × Text) :=
  match t with
  | c :: cs =>
    if c = 'e' ∨ c = 'E' then
      let (negative, ds) := sign cs
      let (run, rest) := digitRun isDigit ds
      if run.isEmpty then none
      else
        let n : Int := Text.value run
        some (if negative then -n else n, rest)
    else none
  | [] => none

/-- A decimal number. It is an integer unless it has a fraction or an exponent. -/
def decimalNumber? (t : Text) : Option (Value × Text) :=
  let (negative, body) := sign t
  match wholePart? body with
  | none => none
  | some (whole, rest) =>
    let fraction := fractionPart? rest
    let rest := (fraction.map (·.2)).getD rest
    let exponent := exponentPart? rest
    let rest := (exponent.map (·.2)).getD rest
    if fraction.isNone && exponent.isNone then
      let n : Int := Text.value whole
      some (.int (if negative then -n else n), rest)
    else
      let digits := (fraction.map (·.1)).getD []
      let ds := whole ++ digits
      let e := (exponent.map (·.1)).getD 0
      some (.float (.ofDecimal negative (Text.value ds) (Text.significantDigits ds) (e - digits.length)), rest)

/-- The numbers that are written as words. -/
def specialFloat? (t : Text) : Option (Value × Text) :=
  let (negative, body) := sign t
  if "inf".toList.isPrefixOf body then some (.float (.infinite negative), body.drop 3)
  else if "nan".toList.isPrefixOf body then some (.float .nan, body.drop 3)
  else none

/-- A number. -/
def number? (t : Text) : Option (Value × Text) :=
  ((basedInteger? t).or (decimalNumber? t)).or (specialFloat? t)

end PatchLint.Toml
