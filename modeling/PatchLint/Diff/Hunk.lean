import PatchLint.Text.Basic

/-!
# Hunks

A hunk is one block of a unified diff: two ranges of line numbers and body lines. The first
character of a body line tells what it is (`Tag`); a line without characters counts as an empty
context line, as some tools strip trailing blanks.

* `Hunk.body` keeps the body lines that the ranges call for, with the markers behind them;
* `Hunk.sides?` splits the body into the lines before and the lines after the change.
-/

namespace PatchLint

/-! ## Body lines -/

/-- The role of a body line. -/
inductive Tag where
  | removed
  | added
  | context
  /-- Says that the line before it is not ended. -/
  | marker
  | unknown
  deriving DecidableEq, Repr

/-- The role a body line has by its first character. -/
def Tag.of : Text → Tag
  | [] => .context
  | c :: _ =>
    if c = '-' then .removed
    else if c = '+' then .added
    else if c = ' ' then .context
    else if c = '\\' then .marker
    else .unknown

/-- Whether a line of this role stands in the text before the change. -/
def Tag.inOld : Tag → Bool
  | .removed | .context => true
  | _ => false

/-- Whether a line of this role stands in the text after the change. -/
def Tag.inNew : Tag → Bool
  | .added | .context => true
  | _ => false

/-- The number of old lines that a body line accounts for. -/
def Tag.oldCount (t : Tag) : Nat := if t.inOld then 1 else 0

/-- The number of new lines that a body line accounts for. -/
def Tag.newCount (t : Tag) : Nat := if t.inNew then 1 else 0

/-! ## Hunks -/

/-- One block of changes. Starts and counts are as written in the header, from one on. -/
structure Hunk where
  oldStart : Nat
  oldCount : Nat
  newStart : Nat
  newCount : Nat
  lines : List Text
  deriving DecidableEq, Repr

/-- The lines of a body while old or new lines are owed, and then only markers. -/
def bodyFrom (oldOwed newOwed : Nat) : List Text → List Text
  | [] => []
  | l :: ls =>
    if oldOwed = 0 ∧ newOwed = 0 then
      if Tag.of l = .marker then l :: bodyFrom oldOwed newOwed ls else []
    else l :: bodyFrom (oldOwed - (Tag.of l).oldCount) (newOwed - (Tag.of l).newCount) ls

/-- The body lines that the header's counts cover. Markers right after them are kept, and anything
further is left out. -/
def Hunk.body (h : Hunk) : List Text := bodyFrom h.oldCount h.newCount h.lines

/-! ## Sides -/

/-- The two sides of a hunk, and which of them say that their last line is not ended. -/
structure Sides where
  old : List Text
  new : List Text
  hasContext : Bool
  oldOpen : Bool
  newOpen : Bool
  deriving DecidableEq, Repr

/-- No lines at all. -/
def Sides.empty : Sides := ⟨[], [], false, false, false⟩

/-- Adds a body line to the sides it belongs to. -/
def Sides.push (s : Sides) (tag : Tag) (line : Text) : Sides :=
  { s with
    old := if tag.inOld then s.old ++ [line.drop 1] else s.old
    new := if tag.inNew then s.new ++ [line.drop 1] else s.new
    hasContext := s.hasContext || tag = .context }

/-- Records a marker after a line of the given role. -/
def Sides.mark (s : Sides) (previous : Option Tag) : Sides :=
  { s with
    oldOpen := s.oldOpen || (previous.map Tag.inOld).getD false
    newOpen := s.newOpen || (previous.map Tag.inNew).getD false }

/-- Splits body lines into sides. `previous` is the role of the last line that was no marker. A line
of unknown role spoils the hunk. -/
def sidesFrom (s : Sides) (previous : Option Tag) : List Text → Option Sides
  | [] => some s
  | l :: ls =>
    match Tag.of l with
    | .marker => sidesFrom (s.mark previous) previous ls
    | .unknown => none
    | tag => sidesFrom (s.push tag l) (some tag) ls

/-- The sides of a hunk, unless its body is malformed. -/
def Hunk.sides? (h : Hunk) : Option Sides := sidesFrom .empty none h.body

end PatchLint
