import PatchLint.Diff.Patch

/-!
# Text edits

A text edit replaces a range of lines by a text. A patch is turned into one edit for every hunk that
changes something; the edit spans the lines from the first to the last change of the hunk, and the
context between two changes is repeated in the new text.
-/

namespace PatchLint

/-- Replaces the lines from `startLine` up to, not including, `endLine` (counted from zero). -/
structure TextEdit where
  startLine : Int
  endLine : Int
  newText : Text
  deriving DecidableEq, Repr

/-- What has been collected from a hunk body: the old line reached, the range of changes so far, the
new lines, and the context lines since the last change. -/
structure EditReader where
  cursor : Int
  range : Option (Int × Int) := none
  replacement : List Text := []
  pending : List Text := []
  deriving DecidableEq, Repr

namespace EditReader

/-- Takes a changed line into the range; `cursor` is the old line reached after it. -/
def change (r : EditReader) (cursor : Int) (new : List Text) : EditReader where
  cursor := cursor
  range := some (match r.range with
    | none => (r.cursor, cursor)
    | some (start, _) => (start, cursor))
  replacement := r.replacement ++ r.pending ++ new
  pending := []

/-- Reads one body line. -/
def step (r : EditReader) (line : Text) : EditReader :=
  match Tag.of line with
  | .marker => r
  | .removed => r.change (r.cursor + 1) []
  | .added => r.change r.cursor [line.drop 1]
  | .context | .unknown =>
    { r with
      cursor := r.cursor + 1
      pending := if r.range.isSome then r.pending ++ [line.drop 1] else r.pending }

/-- The edit that has been collected, unless nothing changes. -/
def edit? (r : EditReader) : Option TextEdit :=
  match r.range with
  | none => none
  | some (start, stop) =>
    if r.replacement.isEmpty && start == stop then none
    else some ⟨start, stop, Text.joinWith ['\n'] r.replacement⟩

end EditReader

/-- The old line, counted from zero, at which the header of a hunk puts it. -/
def Hunk.firstLine (h : Hunk) : Int :=
  if 0 < h.oldCount then (h.oldStart : Int) - 1 else h.oldStart

/-- The edit of a hunk. -/
def Hunk.edit? (h : Hunk) : Option TextEdit :=
  (h.body.foldl EditReader.step { cursor := h.firstLine }).edit?

/-- The edits of a patch. -/
def Patch.edits (p : Patch) : List TextEdit := p.hunks.filterMap Hunk.edit?

/-- The edits of a diff text, unless it has no hunk. -/
def diffEdits? (diff : Text) : Option (List TextEdit) := (Patch.read? diff).map Patch.edits

end PatchLint
