import PatchLint.Text.Utf8

/-!
# Locations

The line and the column of a byte offset, both counted from one. A column counts characters; bytes
that are no character count as their replacements. Offsets outside the source are moved to its ends.
-/

namespace PatchLint

/-- A place in a source. -/
structure Location where
  line : Nat
  column : Nat
  deriving DecidableEq, Repr

/-- The byte of a newline. -/
def newlineByte : UInt8 := 0x0A

namespace Location

/-- The bytes in front of an offset. -/
def front (source : List UInt8) (offset : Int) : List UInt8 := source.take offset.toNat

/-- The bytes after the last newline. -/
def lastLine (bytes : List UInt8) : List UInt8 :=
  (bytes.reverse.takeWhile (· ≠ newlineByte)).reverse

/-- The place of a byte offset. -/
def ofOffset (source : List UInt8) (offset : Int) : Location :=
  let before := front source offset
  { line := before.count newlineByte + 1
    column := (Utf8.decodeLossy (lastLine before)).length + 1 }

end Location

/-- The bytes between newlines. -/
def byteLines : List UInt8 → List (List UInt8)
  | [] => [[]]
  | b :: bs =>
    if b = newlineByte then [] :: byteLines bs
    else match byteLines bs with
      | [] => [[b]]
      | l :: ls => (b :: l) :: ls

/-- The line of a source with this number. -/
def sourceLine? (source : List UInt8) (line : Nat) : Option Text :=
  if line = 0 then none else (byteLines source)[line - 1]?.map Utf8.decodeLossy

end PatchLint
