import PatchLint.Text.Basic

/-!
# Blank characters

The characters that are white space by their bidirectional class or their general category: the
ASCII blanks, the four information separators, the next-line control and the spaces of Unicode.
-/

namespace PatchLint.Text

/-- Inclusive ranges of the blank characters, in ascending order. -/
def blankRanges : List (Nat × Nat) :=
  [(0x09, 0x0D), (0x1C, 0x20), (0x85, 0x85), (0xA0, 0xA0), (0x1680, 0x1680), (0x2000, 0x200A),
   (0x2028, 0x2029), (0x202F, 0x202F), (0x205F, 0x205F), (0x3000, 0x3000)]

/-- Whether a number lies in one of the ranges. -/
def inRanges (ranges : List (Nat × Nat)) (n : Nat) : Bool :=
  ranges.any fun (lo, hi) => lo ≤ n && n ≤ hi

/-- Whether a character is blank. -/
def isBlank (c : Char) : Bool := inRanges blankRanges c.toNat

/-- The text without blank characters at either end. -/
def strip (t : Text) : Text := trim isBlank t

end PatchLint.Text
