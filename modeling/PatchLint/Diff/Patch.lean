import PatchLint.Diff.Hunk
import PatchLint.Text.Blank
import PatchLint.Text.Decimal

/-!
# Patches

A patch is a unified diff of one file: two file names and a list of hunks. `Patch.render` writes it
and `Patch.read` reads it. A number of too many digits in the header of a hunk ends the reading with a
fault (`OverlongNumber`). This is decided by the lines of a diff alone (`overlongNumber?`), so
`Patch.read?` tells what a diff says apart from it, and `ifLegible` guards whatever needs a diff to be
read.

Reading goes line by line. A line that starts with `@@` opens a hunk, or closes the open one if it
is no proper header. The names are recognised only while no hunk is open or the open one has all its
lines, so a removed line `-- x` is not taken for a file name. Every other line belongs to the open
hunk, and lines outside of hunks are skipped.
-/

namespace PatchLint

/-- A unified diff of one file. -/
structure Patch where
  oldName : Text
  newName : Text
  hunks : List Hunk
  deriving DecidableEq, Repr

/-! ## Writing -/

/-- A range of a hunk header. A count of one is left out. -/
def rangeText (start count : Nat) : Text :=
  if count = 1 then Text.ofNat start else Text.ofNat start ++ ',' :: Text.ofNat count

/-- The header line of a hunk. -/
def Hunk.header (h : Hunk) : Text :=
  "@@ -".toList ++ rangeText h.oldStart h.oldCount ++ " +".toList
    ++ rangeText h.newStart h.newCount ++ " @@".toList

/-- The lines of a hunk. -/
def Hunk.render (h : Hunk) : List Text := h.header :: h.lines

/-- The lines of a patch. -/
def Patch.renderLines (p : Patch) : List Text :=
  ("--- ".toList ++ p.oldName) :: ("+++ ".toList ++ p.newName) :: p.hunks.flatMap Hunk.render

/-- The text of a patch; every line is ended. -/
def Patch.render (p : Patch) : Text := p.renderLines.flatMap (· ++ ['\n'])

/-! ## Reading a header -/

/-- Takes a fixed text off the front of the input. -/
def expect? (needle t : Text) : Option Text :=
  if needle.isPrefixOf t then some (t.drop needle.length) else none

/-- Takes a range `start,count` or `start` off the front of the input: the digits of both numbers, and
the rest. A count that is left out has no digits. Digits of any script count. -/
def splitRange? (t : Text) : Option (Text × Text × Text) :=
  let start := t.takeWhile Text.isDigit
  if start.isEmpty then none
  else
    let rest := t.dropWhile Text.isDigit
    let rest := (expect? [','] rest).getD rest
    some (start, rest.takeWhile Text.isDigit, rest.dropWhile Text.isDigit)

/-- The numbers of a hunk header as they are written. -/
structure HeaderDigits where
  oldStart : Text
  oldCount : Text
  newStart : Text
  newCount : Text
  deriving DecidableEq, Repr

namespace HeaderDigits

/-- The numbers of a hunk header. Whatever follows the closing mark is ignored. -/
def read? (t : Text) : Option HeaderDigits := do
  let rest ← expect? "@@ -".toList t
  let (oldStart, oldCount, rest) ← splitRange? rest
  let rest ← expect? " +".toList rest
  let (newStart, newCount, rest) ← splitRange? rest
  let _ ← expect? " @@".toList rest
  pure ⟨oldStart, oldCount, newStart, newCount⟩

/-- The number of a count. A count that is left out is one. -/
def count (digits : Text) : Nat := if digits.isEmpty then 1 else Text.value digits

/-- The hunk that these numbers open. -/
def hunk (d : HeaderDigits) : Hunk :=
  ⟨Text.value d.oldStart, count d.oldCount, Text.value d.newStart, count d.newCount, []⟩

/-- The numbers in the order in which they are converted. -/
def numbers (d : HeaderDigits) : List Text := [d.oldStart, d.oldCount, d.newStart, d.newCount]

end HeaderDigits

/-- Reads a hunk header, however long its numbers are. -/
def Hunk.readHeader? (t : Text) : Option Hunk := (HeaderDigits.read? t).map HeaderDigits.hunk

/-! ### Numbers that are too long -/

/-- A number in a header has more digits than are converted. -/
structure OverlongNumber where
  digits : Nat
  deriving DecidableEq, Repr

/-- The first number of a header that is too long. -/
def HeaderDigits.overlong? (d : HeaderDigits) : Option OverlongNumber :=
  (d.numbers.find? fun number => Text.digitLimit < number.length).map fun number => ⟨number.length⟩

/-- The number on a line that is too long, if the line is a hunk header with such a number. -/
def overlongOnLine? (line : Text) : Option OverlongNumber :=
  (HeaderDigits.read? line).bind HeaderDigits.overlong?

/-! ## Reading a patch -/

/-- What has been read so far: the names, the closed hunks, the open hunk with the numbers of old
and new lines it is still owed, and the lines that looked like a header and were none. -/
structure PatchReader where
  oldName : Text := []
  newName : Text := []
  closed : List Hunk := []
  current : Option Hunk := none
  oldOwed : Nat := 0
  newOwed : Nat := 0
  ignored : List Text := []
  deriving DecidableEq, Repr

namespace PatchReader

/-- All hunks, the open one included. -/
def hunks (r : PatchReader) : List Hunk := r.closed ++ r.current.toList

/-- Whether a file name may stand on the next line. -/
def nameAllowed (r : PatchReader) : Bool :=
  r.current.isNone || (r.oldOwed == 0 && r.newOwed == 0)

/-- Opens a hunk, or skips a line that is no header. -/
def openHunk (r : PatchReader) (line : Text) : PatchReader :=
  match Hunk.readHeader? line with
  | none => { r with closed := r.hunks, current := none, ignored := r.ignored ++ [line] }
  | some h =>
    { r with
      closed := r.hunks, current := some h, oldOwed := h.oldCount, newOwed := h.newCount }

/-- Adds a line to the open hunk. -/
def addLine (r : PatchReader) (line : Text) : PatchReader :=
  match r.current with
  | none => r
  | some h =>
    { r with
      current := some { h with lines := h.lines ++ [line] }
      oldOwed := r.oldOwed - (Tag.of line).oldCount
      newOwed := r.newOwed - (Tag.of line).newCount }

/-- The file name on a line: what follows the mark and one character, without blanks around it. -/
def fileName (line : Text) : Text := Text.strip (line.drop 4)

/-- Reads one line. -/
def step (r : PatchReader) (line : Text) : PatchReader :=
  if Text.startsWith line "@@".toList then r.openHunk line
  else if r.nameAllowed && Text.startsWith line "---".toList then
    { r with oldName := fileName line }
  else if r.nameAllowed && Text.startsWith line "+++".toList then
    { r with newName := fileName line }
  else r.addLine line

end PatchReader

/-- The lines of a diff text; a final newline ends the last line. -/
def diffLines (t : Text) : List Text :=
  let ps := Text.pieces '\n' t
  if ps.getLast? = some [] then ps.dropLast else ps

/-- Reads a diff text to its end. -/
def PatchReader.run (t : Text) : PatchReader := (diffLines t).foldl PatchReader.step {}

/-- What a diff text holds, unless it has no hunk. Its numbers may have any length. -/
def Patch.read? (t : Text) : Option Patch :=
  let r := PatchReader.run t
  if r.hunks.isEmpty then none else some ⟨r.oldName, r.newName, r.hunks⟩

/-- The first number in a diff text that is too long. A line that starts like a header is read as one
wherever it stands, so it does not matter what has been read before. -/
def overlongNumber? (t : Text) : Option OverlongNumber := (diffLines t).findSome? overlongOnLine?

/-- Something that takes a diff to be read: it fails if a number in the diff is too long. -/
def ifLegible {α : Type} (diff : Text) (a : α) : Except OverlongNumber α :=
  match overlongNumber? diff with
  | some fault => .error fault
  | none => .ok a

theorem ifLegible_eq_ok_iff {α : Type} {diff : Text} {a b : α} :
    ifLegible diff a = .ok b ↔ overlongNumber? diff = none ∧ a = b := by
  unfold ifLegible
  cases overlongNumber? diff with
  | none => simp
  | some fault => simp

theorem ifLegible_eq_error_iff {α : Type} {diff : Text} {a : α} {fault : OverlongNumber} :
    ifLegible diff a = .error fault ↔ overlongNumber? diff = some fault := by
  unfold ifLegible
  cases overlongNumber? diff with
  | none => simp
  | some fault => simp

/-- Reads a diff text: the patch that it holds, unless it has no hunk. -/
def Patch.read (t : Text) : Except OverlongNumber (Option Patch) := ifLegible t (Patch.read? t)

/-- The lines of a diff text that look like hunk headers and are none, up to a number that is too
long. -/
def Patch.ignoredHeaders (t : Text) : List Text :=
  (((diffLines t).takeWhile fun line => (overlongOnLine? line).isNone).foldl PatchReader.step {}).ignored

end PatchLint
