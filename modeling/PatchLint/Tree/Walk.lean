import PatchLint.Tree.Node

/-!
# Walking a tree

`walk` visits the named nodes of a tree in pre-order and gives with each one the path from the root
to its parent. It keeps a stack of nodes with their depths and one path; when a node comes off the
stack, the path is cut to the depth of the node.

## Termination

A node leaves the stack and at most its named children enter it, so the number of nodes in the trees
on the stack decreases.
-/

namespace PatchLint

open Node

/-- A node with the nodes above it, the root first. -/
structure Visit where
  node : Node
  ancestors : List Node

/-- The named children of a node, at the next depth. -/
def namedBelow (n : Node) (depth : Nat) : List (Node × Nat) :=
  n.namedChildren.map (·, depth + 1)

theorem map_fst_namedBelow (n : Node) (depth : Nat) :
    (namedBelow n depth).map (·.1) = n.namedChildren := by
  simp [namedBelow, List.map_map, Function.comp_def]

/-- Visits everything on the stack. -/
def walkFrom (path : List Node) : List (Node × Nat) → List Visit
  | [] => []
  | (n, depth) :: stack =>
    ⟨n, path.take depth⟩ :: walkFrom (path.take depth ++ [n]) (namedBelow n depth ++ stack)
termination_by stack => countAll (stack.map (·.1))
decreasing_by
  have := countAll_namedChildren_lt n
  simp only [List.map_append, map_fst_namedBelow, countAll_append, List.map_cons, countAll_cons]
  omega

/-- The visits to the named nodes of a tree, in pre-order. The root is always visited. -/
def walk (root : Node) : List Visit := walkFrom [] [(root, 0)]

end PatchLint
