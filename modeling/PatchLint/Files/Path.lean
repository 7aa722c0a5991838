import PatchLint.Text.Basic

/-!
# Paths

A path has an anchor and components. Its normal form drops empty components and single dots, and
keeps double dots; a relative path without components is written as a dot. Two slashes in front, and
no more, are an anchor of their own. Paths are ordered by their anchor and their components.
-/

namespace PatchLint

/-- Where a path starts. -/
inductive Anchor where
  | relative
  | root
  | doubleRoot
  deriving DecidableEq, Repr

/-- The text of an anchor. -/
def Anchor.text : Anchor → String
  | .relative => ""
  | .root => "/"
  | .doubleRoot => "//"

/-- A path in normal form. -/
structure Path where
  anchor : Anchor
  parts : List String
  deriving DecidableEq, Repr

namespace Path

/-- The components of a path text that count. -/
def componentsOf (t : Text) : List String :=
  ((Text.pieces '/' t).filter fun p => !p.isEmpty && p != ['.']).map String.ofList

/-- The anchor of a path text. -/
def anchorOf (t : Text) : Anchor :=
  match (t.takeWhile (· = '/')).length with
  | 0 => .relative
  | 2 => .doubleRoot
  | _ => .root

/-- The path that a text names. -/
def ofString (s : String) : Path := ⟨anchorOf s.toList, componentsOf s.toList⟩

/-- The text of a path. -/
def toString (p : Path) : String :=
  if p.anchor = .relative ∧ p.parts.isEmpty then "."
  else p.anchor.text ++ joinStrings "/" p.parts

/-- A path text in normal form. -/
def normalize (s : String) : String := (ofString s).toString

/-- The last component. -/
def name (p : Path) : String := p.parts.getLast?.getD ""

/-- The directory a path lies in; a path without components lies in itself. -/
def parent (p : Path) : Path := { p with parts := p.parts.dropLast }

/-- A component below a path. -/
def child (p : Path) (name : String) : Path := { p with parts := p.parts ++ [name] }

/-- A path seen from a directory. -/
def join (p q : Path) : Path :=
  if q.anchor = .relative then { p with parts := p.parts ++ q.parts } else q

/-- The path itself and the directories above it, nearest first. -/
def selfAndParents (p : Path) : List Path :=
  (List.range (p.parts.length + 1)).map fun n => { p with parts := p.parts.take (p.parts.length - n) }

/-- The components that lead to the same place without dots: double dots are resolved against the components
before them, and have no effect at the top. -/
def resolveParts (parts : List String) : List String :=
  parts.foldl (fun acc p => if p = ".." then acc.dropLast else if p = "." then acc else acc ++ [p]) []

/-- The absolute path that a path denotes in a working directory. Two slashes in front count as one. -/
def resolve (cwd p : Path) : Path := ⟨.root, resolveParts (cwd.join p).parts⟩

/-- Whether a path is another one or lies below it. -/
def isUnder (p base : Path) : Bool :=
  decide (p.anchor = base.anchor) && base.parts.isPrefixOf p.parts

/-- A path as seen from a directory it lies in. -/
def relativeTo? (p base : Path) : Option Path :=
  if p.isUnder base then some ⟨.relative, p.parts.drop base.parts.length⟩ else none

/-- The components that decide the order; the anchor counts as one. -/
def orderKey (p : Path) : List String :=
  if p.anchor = .relative then p.parts else p.anchor.text :: p.parts

/-- Compares lists of components; a front of a list comes before the list. -/
def partsLE : List String → List String → Bool
  | [], _ => true
  | _ :: _, [] => false
  | x :: xs, y :: ys => if x = y then partsLE xs ys else decide (x < y)

/-- The order of paths. -/
def le (p q : Path) : Bool := partsLE p.orderKey q.orderKey

/-- The suffix of a file name: from its last dot on, if that is neither its first nor its last
character. -/
def suffixOf (name : Text) : Text :=
  let tail := name.reverse.takeWhile (· ≠ '.')
  if tail.isEmpty || name.length ≤ tail.length + 1 then [] else '.' :: tail.reverse

/-- The suffix of the last component. -/
def suffix (p : Path) : String := String.ofList (suffixOf p.name.toList)

end Path

end PatchLint
