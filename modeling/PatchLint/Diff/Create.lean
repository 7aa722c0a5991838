import PatchLint.Diff.Document
import PatchLint.Diff.Patch
import PatchLint.Diff.Script

/-!
# Making a patch

The edit script between two documents is cut into hunks: each change is shown with up to `context`
common lines on either side, and changes whose context would meet stand in one hunk.
-/

namespace PatchLint

open Document (Entry)

/-- Some neighbouring segments, and how many lines precede them on each side. -/
structure Cluster where
  oldBefore : Nat
  newBefore : Nat
  segments : List (Segment Entry)
  deriving DecidableEq, Repr

/-- Adds a segment at the end. -/
def Cluster.push (c : Cluster) (s : Segment Entry) : Cluster :=
  { c with segments := c.segments ++ [s] }

/-- Whether a segment changes something. -/
def Segment.isChange {α : Type} : Segment α → Bool
  | .change _ _ => true
  | .same _ => false

/-- Cuts a script into clusters at common segments of more than twice the context. `oldAt` and
`newAt` are the lines passed so far, and `current` is the open cluster. -/
def clustersFrom (context oldAt newAt : Nat) (current : Cluster) :
    List (Segment Entry) → List Cluster
  | [] => if current.segments.any Segment.isChange then [current] else []
  | s :: rest =>
    let oldNext := oldAt + s.old.length
    let newNext := newAt + s.new.length
    match s with
    | .change _ _ => clustersFrom context oldNext newNext (current.push s) rest
    | .same items =>
      if 2 * context < items.length then
        let tail := items.drop (items.length - context)
        current.push (.same (items.take context)) ::
          clustersFrom context oldNext newNext
            ⟨oldNext - tail.length, newNext - tail.length, [.same tail]⟩ rest
      else clustersFrom context oldNext newNext (current.push s) rest

/-- Shortens a common segment at the end of a script to its first lines. -/
def trimLast (context : Nat) : List (Segment Entry) → List (Segment Entry)
  | [] => []
  | [.same items] => [.same (items.take context)]
  | s :: rest => s :: trimLast context rest

/-- The clusters of a script. A common segment at the start is shortened to its last lines, one at
the end to its first. -/
def clusters (context : Nat) (script : List (Segment Entry)) : List Cluster :=
  match script with
  | .same items :: rest =>
    let skipped := items.length - context
    clustersFrom context skipped skipped ⟨skipped, skipped, []⟩
      (trimLast context (.same (items.drop skipped) :: rest))
  | script => clustersFrom context 0 0 ⟨0, 0, []⟩ (trimLast context script)

/-- The text of the marker after a line that is not ended. -/
def openMarker : Text := "\\ No newline at end of file".toList

/-- A body line, with the marker after it if the line is not ended. -/
def bodyLine (tag : Char) (e : Entry) : List Text :=
  (tag :: e.text) :: (if e.ended then [] else [openMarker])

/-- The body lines of a segment. -/
def Segment.bodyLines : Segment Entry → List Text
  | .same items => items.flatMap (bodyLine ' ')
  | .change removed added => removed.flatMap (bodyLine '-') ++ added.flatMap (bodyLine '+')

/-- The number that a header gives for a range after `before` lines. -/
def startNumber (before count : Nat) : Nat := if count = 0 then before else before + 1

/-- The hunk of a cluster. -/
def Cluster.hunk (c : Cluster) : Hunk :=
  let oldCount := (c.segments.flatMap Segment.old).length
  let newCount := (c.segments.flatMap Segment.new).length
  { oldStart := startNumber c.oldBefore oldCount
    oldCount := oldCount
    newStart := startNumber c.newBefore newCount
    newCount := newCount
    lines := c.segments.flatMap Segment.bodyLines }

/-- The patch between two documents. -/
def Patch.between (oldName newName : Text) (context : Nat) (a b : Document) : Patch where
  oldName := oldName
  newName := newName
  hunks := (clusters context (script a.entries b.entries)).map Cluster.hunk

/-- The unified diff between two texts. Equal texts give the two name lines only. -/
def createDiff (before after oldName newName : Text) (context : Nat) : Text :=
  (Patch.between oldName newName context (.ofText before) (.ofText after)).render

/-- The names that are used unless others are given. -/
def defaultOldName : Text := "original".toList

@[inherit_doc defaultOldName]
def defaultNewName : Text := "fixed".toList

/-- The number of context lines that is used unless another is given. -/
def defaultContext : Nat := 3

end PatchLint
