import PatchLint.Json.Basic
import PatchLint.Text.Decimal

/-!
# Reading JSON

The reader takes a whole text and gives a value, or the first fault with its place. Beside the
standard grammar it accepts `NaN`, `Infinity` and `-Infinity`; control characters inside strings
are refused; of two members with one name the later value counts. One thing is lost: a text cannot hold half
of a pair of character codes, so an escape for a half that stands alone is read as the replacement character
and not kept (`charOfCode`).

A fault is reported with the input that is left at its place, from which position, line and column
follow. Two faults are about the reader and not about the grammar: it converts no integer of more than
`digitLimit` digits (`Cause.digits`), and it may be bound to a number of levels of lists and objects inside
of each other, where it breaks off as soon as a text goes deeper (`Cause.nesting`).

## Termination

`readString` drops at least one character in every step. Of the three functions on values, each
call passes a character or is followed by one that does, so two units of fuel per character, and two
more, are enough; `parse` supplies them.
-/

namespace PatchLint.Json

/-! ## Faults -/

/-- What is wrong with a text that is no JSON value. -/
inductive Cause where
  | value
  | name
  | colon
  | comma
  | extra
  | unterminated
  | control
  | escape
  | codeEscape
  | mark
  /-- An integer has more digits than are converted. -/
  | digits (count : Nat)
  /-- A list or an object starts where the reader may go no deeper. -/
  | nesting (container : String)
  deriving DecidableEq, Repr

/-- Whether the reader broke off at a level that is too deep for it. -/
def Cause.isNesting : Cause → Bool
  | .nesting _ => true
  | _ => false

/-- The wording of a cause. -/
def Cause.message : Cause → String
  | .value => "Expecting value"
  | .name => "Expecting property name enclosed in double quotes"
  | .colon => "Expecting ':' delimiter"
  | .comma => "Expecting ',' delimiter"
  | .extra => "Extra data"
  | .unterminated => "Unterminated string starting at"
  | .control => "Invalid control character at"
  | .escape => "Invalid \\escape"
  | .codeEscape => "Invalid \\uXXXX escape"
  | .mark => "Unexpected UTF-8 BOM (decode using utf-8-sig)"
  | .digits count =>
    "Exceeds the limit (4300 digits) for integer string conversion: value has "
      ++ Text.showNat count ++ " digits; use sys.set_int_max_str_digits() to increase the limit"
  | .nesting container =>
    "maximum recursion depth exceeded while decoding a JSON " ++ container ++ " from a unicode string"

/-- A cause with the input that is left where it was found. -/
structure Fault where
  cause : Cause
  rest : Text
  deriving DecidableEq, Repr

/-- The wording of a fault in a text: cause, line, column and position. -/
def Fault.message (f : Fault) (input : Text) : String :=
  let position := input.length - f.rest.length
  let before := input.take position
  let line := Text.showNat (before.count '\n' + 1)
  let column := Text.showNat ((before.reverse.takeWhile (· ≠ '\n')).length + 1)
  let place := Text.showNat position
  let cause := f.cause.message
  s!"{cause}: line {line} column {column} (char {place})"

/-! ## Blanks and literals -/

/-- The blanks between tokens. -/
def isBlank (c : Char) : Bool := c = ' ' || c = '\t' || c = '\n' || c = '\r'

/-- The input without leading blanks. -/
def skipBlanks (t : Text) : Text := t.dropWhile isBlank

/-- The values that are written as a word. -/
def words : List (Text × Json) :=
  [("null".toList, .null), ("true".toList, .bool true), ("false".toList, .bool false),
   ("NaN".toList, .float .nan), ("Infinity".toList, .float (.infinite false)),
   ("-Infinity".toList, .float (.infinite true))]

/-- The word at the front of the input. -/
def readWord? (t : Text) : Option (Json × Text) :=
  (words.find? fun (w, _) => w.isPrefixOf t).map fun (w, v) => (v, t.drop w.length)

/-! ## Numbers -/

/-- Whether a character is an ASCII digit. -/
def isDigit (c : Char) : Bool := '0' ≤ c && c ≤ '9'

/-- The digits in front of the point: a lone zero, or a run that does not start with zero. -/
def readWhole? (t : Text) : Option (Text × Text) :=
  match t with
  | [] => none
  | c :: cs =>
    if c = '0' then some ([c], cs)
    else if isDigit c then some (t.takeWhile isDigit, t.dropWhile isDigit)
    else none

/-- The digits after the point, if there is a point followed by a digit. -/
def readFraction (t : Text) : Text × Text :=
  match t with
  | '.' :: cs =>
    if (cs.takeWhile isDigit).isEmpty then ([], t) else (cs.takeWhile isDigit, cs.dropWhile isDigit)
  | _ => ([], t)

/-- Whether an exponent has a minus sign, and what follows its sign. -/
def readSign : Text → Bool × Text
  | '-' :: ds => (true, ds)
  | '+' :: ds => (false, ds)
  | ds => (false, ds)

/-- The exponent, if there is a mark followed by an optional sign and a digit. -/
def readExponent? (t : Text) : Option (Int × Text) :=
  match t with
  | [] => none
  | c :: cs =>
    if c = 'e' ∨ c = 'E' then
      let (negative, ds) := readSign cs
      let run := ds.takeWhile isDigit
      if run.isEmpty then none
      else
        let n : Int := Text.value run
        some (if negative then -n else n, ds.dropWhile isDigit)
    else none

/-- Whether a number has a minus sign, and what follows its sign. -/
def readMinus : Text → Bool × Text
  | '-' :: cs => (true, cs)
  | cs => (false, cs)

/-- The most digits that an integer is converted from. -/
def digitLimit : Nat := Text.digitLimit

/-- The number at the front of the input. It is an integer unless it has a point or an exponent. -/
def readNumber (t : Text) : Except Fault (Json × Text) :=
  let (negative, body) := readMinus t
  match readWhole? body with
  | none => .error ⟨.value, t⟩
  | some (whole, rest) =>
    let (fraction, rest) := readFraction rest
    match readExponent? rest with
    | none =>
      if fraction.isEmpty then
        if digitLimit < whole.length then .error ⟨.digits whole.length, t⟩
        else
          let n : Int := Text.value whole
          .ok (.int (if negative then -n else n), rest)
      else
        let ds := whole ++ fraction
        .ok (.float (.ofDecimal negative (Text.value ds) (Text.significantDigits ds) (-fraction.length)), rest)
    | some (e, rest) =>
      let ds := whole ++ fraction
      .ok (.float (.ofDecimal negative (Text.value ds) (Text.significantDigits ds) (e - fraction.length)), rest)

/-! ## Strings -/

/-- The number of four hexadecimal digits at the front of the input. -/
def readCode? (t : Text) : Option Nat :=
  match t with
  | a :: b :: c :: d :: _ => do
    let a ← Text.hexValue? a
    let b ← Text.hexValue? b
    let c ← Text.hexValue? c
    let d ← Text.hexValue? d
    pure (((a * 16 + b) * 16 + c) * 16 + d)
  | _ => none

/-- Whether a number is the first half of a pair. -/
def isHighHalf (n : Nat) : Bool := 0xD800 ≤ n && n < 0xDC00

/-- Whether a number is the second half of a pair. -/
def isLowHalf (n : Nat) : Bool := 0xDC00 ≤ n && n < 0xE000

/-- The character of a code. A half without its partner has no character of its own and is read as
the replacement character. -/
def charOfCode (n : Nat) : Char :=
  if isHighHalf n || isLowHalf n then Char.ofNat 0xFFFD else Char.ofNat n

/-- The character of a pair of halves. -/
def charOfPair (high low : Nat) : Char :=
  Char.ofNat (0x10000 + (high - 0xD800) * 0x400 + (low - 0xDC00))

/-- The escape by number; `t` is the input after the `u`. Gives the character and how much of `t`
it takes. Something has to follow the digits, and so does something after a second escape for it to
be looked at. -/
def readCodeEscape (t : Text) : Except Fault (Char × Nat) :=
  let fault : Except Fault (Char × Nat) := .error ⟨.codeEscape, 'u' :: t⟩
  if t.length < 5 then fault
  else match readCode? t with
    | none => fault
    | some high =>
      let rest := t.drop 4
      if isHighHalf high && "\\u".toList.isPrefixOf rest && 6 < rest.length then
        match readCode? (rest.drop 2) with
        | none => .error ⟨.codeEscape, rest.drop 1⟩
        | some low =>
          if isLowHalf low then .ok (charOfPair high low, 10) else .ok (charOfCode high, 4)
      else .ok (charOfCode high, 4)

/-- The characters that are escaped by one letter. -/
def simpleEscape? (c : Char) : Option Char :=
  if c = '"' ∨ c = '\\' ∨ c = '/' then some c
  else if c = 'b' then some '\x08'
  else if c = 'f' then some '\x0c'
  else if c = 'n' then some '\n'
  else if c = 'r' then some '\r'
  else if c = 't' then some '\t'
  else none

/-- The escape whose backslash is followed by `t`: the character and how much of `t` it takes.
`start` is the input from the opening quote on. -/
def readEscape (start t : Text) : Except Fault (Char × Nat) :=
  match t with
  | [] => .error ⟨.unterminated, start⟩
  | c :: cs =>
    if c = 'u' then
      match readCodeEscape cs with
      | .error f => .error f
      | .ok (ch, n) => .ok (ch, n + 1)
    else match simpleEscape? c with
      | some ch => .ok (ch, 1)
      | none => .error ⟨.escape, '\\' :: t⟩

/-- The rest of a string after its opening quote. `seen` holds the characters read so far, last one
first. -/
def readString (start seen : Text) : Text → Except Fault (Text × Text)
  | [] => .error ⟨.unterminated, start⟩
  | c :: cs =>
    if c = '"' then .ok (seen.reverse, cs)
    else if c = '\\' then
      match readEscape start cs with
      | .error f => .error f
      | .ok (ch, n) => readString start (ch :: seen) (cs.drop n)
    else if c.toNat < 0x20 then .error ⟨.control, c :: cs⟩
    else readString start (c :: seen) cs
termination_by t => t.length
decreasing_by all_goals simp only [List.length_drop, List.length_cons]; omega

/-! ## Values -/

mutual

/-- The value at the front of the input. `levels` more lists and objects may be open inside of each
other. -/
def readValue : Nat → Nat → Text → Except Fault (Json × Text)
  | 0, _, t => .error ⟨.value, t⟩
  | fuel + 1, levels, t =>
    match t with
    | [] => .error ⟨.value, t⟩
    | c :: cs =>
      if c = '"' then
        match readString t [] cs with
        | .error f => .error f
        | .ok (s, rest) => .ok (.str (String.ofList s), rest)
      else if c = '{' then
        match levels with
        | 0 => .error ⟨.nesting "object", t⟩
        | levels + 1 =>
          match skipBlanks cs with
          | '}' :: rest => .ok (.obj [], rest)
          | rest => readFields fuel levels [] rest
      else if c = '[' then
        match levels with
        | 0 => .error ⟨.nesting "array", t⟩
        | levels + 1 =>
          match skipBlanks cs with
          | ']' :: rest => .ok (.arr [], rest)
          | rest => readItems fuel levels [] rest
      else match readWord? t with
        | some found => .ok found
        | none => readNumber t

/-- The items of an array from one of them on. `seen` holds those before it, last one first. -/
def readItems : Nat → Nat → List Json → Text → Except Fault (Json × Text)
  | 0, _, _, t => .error ⟨.value, t⟩
  | fuel + 1, levels, seen, t =>
    match readValue fuel levels t with
    | .error f => .error f
    | .ok (v, rest) =>
      match skipBlanks rest with
      | ']' :: rest => .ok (.arr (v :: seen).reverse, rest)
      | ',' :: rest => readItems fuel levels (v :: seen) (skipBlanks rest)
      | rest => .error ⟨.comma, rest⟩

/-- The members of an object from one of them on, after those in `seen`. -/
def readFields : Nat → Nat → List (String × Json) → Text → Except Fault (Json × Text)
  | 0, _, _, t => .error ⟨.value, t⟩
  | fuel + 1, levels, seen, t =>
    match t with
    | '"' :: cs =>
      match readString t [] cs with
      | .error f => .error f
      | .ok (key, rest) =>
        match skipBlanks rest with
        | ':' :: rest =>
          match readValue fuel levels (skipBlanks rest) with
          | .error f => .error f
          | .ok (v, rest) =>
            let seen := insertField (String.ofList key) v seen
            match skipBlanks rest with
            | '}' :: rest => .ok (.obj seen, rest)
            | ',' :: rest => readFields fuel levels seen (skipBlanks rest)
            | rest => .error ⟨.comma, rest⟩
        | rest => .error ⟨.colon, rest⟩
    | _ => .error ⟨.name, t⟩

end

/-- The value a text holds, with blanks around it, for a reader that goes no deeper than a limit. A text
must not start with a byte order mark. -/
def parseWithin (limit : Option Nat) (t : Text) : Except Fault Json :=
  if t.head? = some (Char.ofNat 0xFEFF) then .error ⟨.mark, t⟩
  else match readValue (2 * t.length + 2) (limit.getD t.length) (skipBlanks t) with
    | .error f => .error f
    | .ok (v, rest) =>
      match skipBlanks rest with
      | [] => .ok v
      | rest => .error ⟨.extra, rest⟩

/-- The value a text holds, for a reader that goes as deep as the text does. -/
def parse (t : Text) : Except Fault Json := parseWithin none t

end PatchLint.Json
