import PatchLint.Diff.Document
import PatchLint.Diff.Patch

/-!
# Applying a patch

The hunks are put into the document one after another. Where a hunk goes is decided by `locate`: the
place its header names, corrected by how far the hunks before it have moved things, or else the
nearest place at which its old lines stand. A hunk without context goes only to the place it names.
A hunk never starts before the end of the one before it.
-/

namespace PatchLint

/-! ## Finding the place of a hunk -/

/-- Whether `needle` stands in `lines` at `position`. -/
def occursAt (lines needle : List Text) (position : Nat) : Bool :=
  (lines.drop position).take needle.length == needle

/-- Whether a hunk fits at a position that is not before `floor` and leaves room for its lines. -/
def fitsAt (lines needle : List Text) (floor : Nat) (position : Int) : Bool :=
  floor ≤ position && position + needle.length ≤ lines.length
    && occursAt lines needle position.toNat

/-- Looks at the two positions at each distance from `expected`, the one before it first, for
`count` distances from `distance` on. -/
def searchOutward (fits : Int → Bool) (expected : Int) (distance : Nat) : Nat → Option Int
  | 0 => none
  | count + 1 =>
    if fits (expected - distance) then some (expected - distance)
    else if fits (expected + distance) then some (expected + distance)
    else searchOutward fits expected (distance + 1) count

/-- The position of `needle` in `lines`: the expected one, or the nearest one if `search` is set. -/
def locate (lines needle : List Text) (expected : Int) (floor : Nat) (search : Bool) : Option Nat :=
  let last : Int := (lines.length : Int) - needle.length
  if last < floor then none
  else if fitsAt lines needle floor expected then some expected.toNat
  else if search then
    (searchOutward (fitsAt lines needle floor) expected 1
      (max (expected - floor) (last - expected)).toNat).map Int.toNat
  else none

/-! ## Applying -/

/-- Why a patch does not apply. Hunks are counted from one. -/
inductive ApplyError where
  | noHunks
  | malformed (hunk : Nat)
  | mismatch (hunk : Nat)
  deriving DecidableEq, Repr

/-- The wording of a failure. -/
def ApplyError.message : ApplyError → String
  | .noHunks => "Patch has no hunks"
  | .malformed hunk => "Hunk " ++ Text.showNat hunk ++ " is malformed"
  | .mismatch hunk => "Hunk " ++ Text.showNat hunk ++ " does not match the document"

/-- The document while hunks are applied: its lines, how far the next hunk is expected to have
moved, and where the last one ended. -/
structure Progress where
  document : Document
  shift : Int
  floor : Nat
  deriving DecidableEq, Repr

/-- Puts `new` in place of the `count` lines at `position`. -/
def splice (lines : List Text) (position count : Nat) (new : List Text) : List Text :=
  lines.take position ++ new ++ lines.drop (position + count)

/-- The line index that a hunk names. An empty range stands after the line of its number. -/
def Hunk.anchor (h : Hunk) (sides : Sides) : Int :=
  if sides.old.isEmpty then h.oldStart else (h.oldStart : Int) - 1

/-- Whether the last line is ended after a hunk. -/
def Sides.endedAfter (s : Sides) (before : Bool) : Bool :=
  if s.newOpen then false else if s.oldOpen then true else before

/-- The progress after putting the sides of a hunk at a position. -/
def Progress.advance (p : Progress) (h : Hunk) (sides : Sides) (position : Nat) : Progress where
  document :=
    { lines := splice p.document.lines position sides.old.length sides.new
      ended := sides.endedAfter p.document.ended }
  shift := position - h.anchor sides + sides.new.length - sides.old.length
  floor := position + sides.new.length

/-- Applies one hunk, the `index`-th. -/
def Progress.apply (p : Progress) (index : Nat) (h : Hunk) : Except ApplyError Progress :=
  match h.sides? with
  | none => .error (.malformed index)
  | some sides =>
    match locate p.document.lines sides.old (h.anchor sides + p.shift) p.floor sides.hasContext with
    | none => .error (.mismatch index)
    | some position => .ok (p.advance h sides position)

/-- Applies hunks, the first of which is the `index`-th. -/
def Progress.applyAll (p : Progress) (index : Nat) : List Hunk → Except ApplyError Progress
  | [] => .ok p
  | h :: hs =>
    match p.apply index h with
    | .error e => .error e
    | .ok p => p.applyAll (index + 1) hs

/-- Applies a patch to a text. -/
def Patch.apply (p : Patch) (t : Text) : Except ApplyError Text :=
  match Progress.applyAll ⟨.ofText t, 0, 0⟩ 1 p.hunks with
  | .error e => .error e
  | .ok r => .ok r.document.toText

/-- Applies a diff text to a text. -/
def applyDiff (before diff : Text) : Except ApplyError Text :=
  match Patch.read? diff with
  | none => .error .noHunks
  | some p => p.apply before

/-- The text after a diff, if the diff applies. -/
def applyDiff? (before diff : Text) : Option Text := (applyDiff before diff).toOption

/-- Whether a diff applies. -/
def diffApplies (before diff : Text) : Bool := (applyDiff? before diff).isSome

/-- Whether a diff applies and changes the text. -/
def diffChanges (before diff : Text) : Bool :=
  match applyDiff? before diff with
  | none => false
  | some patched => patched != before

end PatchLint
