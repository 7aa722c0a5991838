import Mathlib.Data.List.Basic
import PatchLint.Tree.Walk

/-!
# A walk is the pre-order of a tree

`preorder` lists a tree by recursion: first the node itself, then what is below each of its named
children in turn, all with their true paths. `walk` does the same with a stack and one path that is
cut back (`walk_eq_preorder`).

The depths on the stack never grow from its top to its bottom, and the path always reaches at least
as deep as the node on top. So cutting the path to the depth of a node further down gives the path
that the node had when it was put on the stack.
-/

namespace PatchLint

open Node

/-! ## Pre-order -/

mutual

/-- The named nodes of a tree in pre-order, with the nodes above them. The root is listed in any case;
`path` leads to it. -/
def preorder (path : List Node) : Node → List Visit
  | .mk info children =>
    ⟨.mk info children, path⟩ :: preorderAll (path ++ [.mk info children]) children

/-- The named trees among several, in pre-order. -/
def preorderAll (path : List Node) : List Node → List Visit
  | [] => []
  | n :: ns => (if n.info.named then preorder path n else []) ++ preorderAll path ns

end

theorem preorderAll_eq_flatMap (path : List Node) (ns : List Node) :
    preorderAll path ns = (ns.filter (·.info.named)).flatMap (preorder path) := by
  induction ns with
  | nil => rw [preorderAll]; rfl
  | cons n ns ih =>
    rw [preorderAll, ih, List.filter_cons]
    split
    · rw [List.flatMap_cons]
    · rfl

/-- A tree is listed as its root, followed by the trees of its named children. -/
theorem preorder_eq (path : List Node) (n : Node) :
    preorder path n = ⟨n, path⟩ :: n.namedChildren.flatMap (preorder (path ++ [n])) := by
  cases n with
  | mk info children => rw [preorder, preorderAll_eq_flatMap]; rfl

/-! ## The stack -/

/-- The trees on a stack, each with the path to its depth. -/
def preorderStack (path : List Node) (stack : List (Node × Nat)) : List Visit :=
  stack.flatMap fun item => preorder (path.take item.2) item.1

/-- Whether a stack goes with a path: no item lies deeper than the path reaches, nor deeper than the
items above it. -/
def StackFits (path : List Node) (stack : List (Node × Nat)) : Prop :=
  (∀ item ∈ stack, item.2 ≤ path.length) ∧ stack.Pairwise fun upper lower => lower.2 ≤ upper.2

theorem stackFits_step {path : List Node} {n : Node} {depth : Nat} {stack : List (Node × Nat)}
    (h : StackFits path ((n, depth) :: stack)) :
    StackFits (path.take depth ++ [n]) (namedBelow n depth ++ stack) := by
  obtain ⟨hlen, hsorted⟩ := h
  have hdepth : depth ≤ path.length := hlen (n, depth) List.mem_cons_self
  have hlower : ∀ item ∈ stack, item.2 ≤ depth := (List.pairwise_cons.mp hsorted).1
  have hbelow : ∀ item ∈ namedBelow n depth, item.2 = depth + 1 := by
    intro item hitem
    obtain ⟨m, -, rfl⟩ := List.mem_map.mp hitem
    rfl
  constructor
  · intro item hitem
    rw [List.length_append, List.length_take, Nat.min_eq_left hdepth, List.length_singleton]
    rcases List.mem_append.mp hitem with hitem | hitem
    · exact Nat.le_of_eq (hbelow item hitem)
    · exact Nat.le_succ_of_le (hlower item hitem)
  · refine List.pairwise_append.mpr ⟨?_, (List.pairwise_cons.mp hsorted).2, ?_⟩
    · refine List.Pairwise.imp_of_mem ?_ (List.pairwise_of_forall fun _ _ => trivial)
      intro upper lower hu hl _
      exact Nat.le_of_eq ((hbelow lower hl).trans (hbelow upper hu).symm)
    · intro upper hu lower hl
      rw [hbelow upper hu]
      exact Nat.le_succ_of_le (hlower lower hl)

/-- Taking a node off the stack and putting its named children on lists the same visits. -/
theorem preorderStack_step {path : List Node} {n : Node} {depth : Nat} {stack : List (Node × Nat)}
    (h : StackFits path ((n, depth) :: stack)) :
    preorderStack path ((n, depth) :: stack)
      = ⟨n, path.take depth⟩ ::
          preorderStack (path.take depth ++ [n]) (namedBelow n depth ++ stack) := by
  obtain ⟨hlen, hsorted⟩ := h
  have hdepth : depth ≤ path.length := hlen (n, depth) List.mem_cons_self
  have htake : (path.take depth ++ [n]).take (depth + 1) = path.take depth ++ [n] := by
    refine List.take_of_length_le (Nat.le_of_eq ?_)
    rw [List.length_append, List.length_take, Nat.min_eq_left hdepth, List.length_singleton]
  have hbelow : preorderStack (path.take depth ++ [n]) (namedBelow n depth)
      = n.namedChildren.flatMap (preorder (path.take depth ++ [n])) := by
    simp only [preorderStack, namedBelow, List.flatMap_map, htake]
  have hstack : preorderStack (path.take depth ++ [n]) stack = preorderStack path stack := by
    refine List.flatMap_congr fun item hitem => ?_
    -- the items further down lie no deeper than the node, so the cut leaves their paths alone
    have hitem : item.2 ≤ depth := (List.pairwise_cons.mp hsorted).1 item hitem
    rw [List.take_append_of_le_length (by rw [List.length_take]; omega), List.take_take,
      Nat.min_eq_left hitem]
  show preorder (path.take depth) n ++ preorderStack path stack = _
  rw [preorder_eq, List.cons_append, ← hbelow, ← hstack]
  simp only [preorderStack, List.flatMap_append]

/-- **A walk goes through the trees on its stack in pre-order.** -/
theorem walkFrom_eq_preorderStack (path : List Node) (stack : List (Node × Nat))
    (h : StackFits path stack) : walkFrom path stack = preorderStack path stack := by
  fun_induction walkFrom path stack with
  | case1 path => rfl
  | case2 path n depth stack ih => rw [preorderStack_step h, ih (stackFits_step h)]

/-- **A walk is the pre-order of the tree, with true paths.** -/
theorem walk_eq_preorder (root : Node) : walk root = preorder [] root := by
  rw [walk, walkFrom_eq_preorderStack [] [(root, 0)] ⟨by simp, by simp⟩]
  simp [preorderStack]

end PatchLint
