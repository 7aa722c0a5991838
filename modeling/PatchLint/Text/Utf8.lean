import PatchLint.Text.Basic
import PatchLint.Text.Decimal

/-!
# UTF-8

Encoding, strict decoding and lossy decoding of byte sequences.

A byte sequence is read one *unit* at a time: either a whole character, or a *fault*, which covers
the longest run of bytes that starts some character without finishing it (at least one byte).
Strict decoding stops at the first fault and says where and why; lossy decoding replaces every
fault by one replacement character. Both are driven by the same `unit`, so they agree on what a
fault is.

## Termination

`decodeLossy` and `decodeFrom` consume the first byte and `Unit.extra` more, so the number of bytes
left decreases.
-/

namespace PatchLint.Utf8

/-! ## Encoding -/

/-- The byte of a number below 256. -/
def byte (n : Nat) : UInt8 := UInt8.ofNat n

/-- The bytes of one character. -/
def encodeChar (c : Char) : List UInt8 :=
  let n := c.toNat
  if n < 0x80 then [byte n]
  else if n < 0x800 then [byte (0xC0 + n / 0x40), byte (0x80 + n % 0x40)]
  else if n < 0x10000 then
    [byte (0xE0 + n / 0x1000), byte (0x80 + n / 0x40 % 0x40), byte (0x80 + n % 0x40)]
  else
    [byte (0xF0 + n / 0x40000), byte (0x80 + n / 0x1000 % 0x40), byte (0x80 + n / 0x40 % 0x40),
     byte (0x80 + n % 0x40)]

/-- The bytes of a text. -/
def encode (t : Text) : List UInt8 := t.flatMap encodeChar

@[simp] theorem encode_nil : encode [] = [] := rfl

@[simp] theorem encode_cons (c : Char) (t : Text) : encode (c :: t) = encodeChar c ++ encode t := by
  simp [encode]

@[simp] theorem encode_append (s t : Text) : encode (s ++ t) = encode s ++ encode t := by
  simp [encode]

/-- The number of bytes of one character. -/
def width (c : Char) : Nat := (encodeChar c).length

/-! ## Units -/

/-- Why a run of bytes is no character. -/
inductive Fault where
  /-- The first byte starts no character. -/
  | startByte
  /-- A byte that should continue the character does not. -/
  | continuation
  /-- The bytes end inside the character. -/
  | truncated
  deriving DecidableEq, Repr

/-- What the front of a byte sequence holds, with the number of bytes taken after the first. -/
inductive Unit where
  | char (c : Char) (extra : Nat)
  | fault (f : Fault) (extra : Nat)
  deriving DecidableEq, Repr

/-- The number of bytes a unit takes after its first one. -/
def Unit.extra : Unit → Nat
  | .char _ extra => extra
  | .fault _ extra => extra

/-- How a character starts: the bits its first byte contributes, the number of bytes that follow,
and the range of the first of these. The range is narrower than that of a continuation byte after
`E0`, `ED`, `F0` and `F4`, which excludes long forms, surrogates and numbers past the last
character. -/
structure Lead where
  bits : Nat
  following : Nat
  lo : Nat
  hi : Nat
  deriving DecidableEq, Repr

/-- The lead of a first byte, if the byte can start a character. -/
def lead? (b : Nat) : Option Lead :=
  if b < 0x80 then some ⟨b, 0, 0x80, 0xBF⟩
  else if b < 0xC2 then none
  else if b < 0xE0 then some ⟨b - 0xC0, 1, 0x80, 0xBF⟩
  else if b = 0xE0 then some ⟨0, 2, 0xA0, 0xBF⟩
  else if b = 0xED then some ⟨0xD, 2, 0x80, 0x9F⟩
  else if b < 0xF0 then some ⟨b - 0xE0, 2, 0x80, 0xBF⟩
  else if b = 0xF0 then some ⟨0, 3, 0x90, 0xBF⟩
  else if b < 0xF4 then some ⟨b - 0xF0, 3, 0x80, 0xBF⟩
  else if b = 0xF4 then some ⟨4, 3, 0x80, 0x8F⟩
  else none

/-- Reads the bytes that follow: `left` of them are owed, `taken` have been read, and the next one
has to lie between `lo` and `hi`. -/
def readTail (bits left taken lo hi : Nat) : List UInt8 → Unit
  | [] => if left = 0 then .char (Char.ofNat bits) taken else .fault .truncated taken
  | b :: bs =>
    match left with
    | 0 => .char (Char.ofNat bits) taken
    | left + 1 =>
      if lo ≤ b.toNat ∧ b.toNat ≤ hi then
        readTail (bits * 0x40 + (b.toNat - 0x80)) left (taken + 1) 0x80 0xBF bs
      else .fault .continuation taken

/-- The unit at the front of a byte sequence. -/
def unit (b : UInt8) (bs : List UInt8) : Unit :=
  match lead? b.toNat with
  | none => .fault .startByte 0
  | some l => readTail l.bits l.following 0 l.lo l.hi bs

/-! ## Lossy decoding -/

/-- The character that stands for a fault. -/
def replacement : Char := Char.ofNat 0xFFFD

/-- The character a unit is shown as. -/
def Unit.shown : Unit → Char
  | .char c _ => c
  | .fault _ _ => replacement

/-- Decodes a byte sequence, one replacement character for every fault. -/
def decodeLossy : List UInt8 → Text
  | [] => []
  | b :: bs => (unit b bs).shown :: decodeLossy (bs.drop (unit b bs).extra)
termination_by bytes => bytes.length
decreasing_by simp only [List.length_drop, List.length_cons]; omega

/-! ## Strict decoding -/

/-- The first fault of a byte sequence: its kind, its position, its bytes. -/
structure DecodeError where
  fault : Fault
  position : Nat
  bytes : List UInt8
  deriving DecidableEq, Repr

/-- Decodes a byte sequence that starts at `position` of the whole. -/
def decodeFrom (position : Nat) : List UInt8 → Except DecodeError Text
  | [] => .ok []
  | b :: bs =>
    match unit b bs with
    | .fault f extra => .error ⟨f, position, b :: bs.take extra⟩
    | .char c extra =>
      match decodeFrom (position + 1 + extra) (bs.drop extra) with
      | .error e => .error e
      | .ok t => .ok (c :: t)
termination_by bytes => bytes.length
decreasing_by simp only [List.length_drop, List.length_cons]; omega

/-- Decodes a byte sequence, or says where it is not UTF-8. -/
def decode (bytes : List UInt8) : Except DecodeError Text := decodeFrom 0 bytes

/-- The wording of a fault. -/
def Fault.message : Fault → String
  | .startByte => "invalid start byte"
  | .continuation => "invalid continuation byte"
  | .truncated => "unexpected end of data"

/-- The wording of a decoding error: the byte itself if it is one, else the range of positions. -/
def DecodeError.message (e : DecodeError) : String :=
  let position := Text.showNat e.position
  let reason := e.fault.message
  match e.bytes with
  | [b] =>
    let code := String.ofList (Text.hex 2 b.toNat)
    s!"'utf-8' codec can't decode byte 0x{code} in position {position}: {reason}"
  | bytes =>
    let last := Text.showNat (e.position + bytes.length - 1)
    s!"'utf-8' codec can't decode bytes in position {position}-{last}: {reason}"

end PatchLint.Utf8
