import PatchLint.Proofs.Tree.Preorder

/-!
# Trees at another place

When a text in front of a tree gets longer, the tree stays the same and all its offsets grow
(`Node.moved`). Nothing but the offsets tells the two apart: children, fields and the walk are the
same up to the move.

* `Node.nodes` — all nodes of a tree, named or not
* `children_induction` — induction from the children of a node to the node
* `field?_moved`, `namedChildren_moved`, `nodes_moved`, `preorder_moved` — moving a tree moves what is
  found in it
* `bytes_moved` — a tree is read the same where the text around it has moved with it
-/

namespace PatchLint

namespace Node

/-! ## All nodes of a tree -/

/-- Induction over a tree, from the children of a node to the node. -/
@[elab_as_elim]
theorem children_induction {P : Node → Prop} (step : ∀ n, (∀ c ∈ n.children, P c) → P n)
    (n : Node) : P n :=
  step n fun c _ => children_induction step c
termination_by n.count
decreasing_by exact count_lt_of_mem_children ‹_›

mutual

/-- All nodes of a tree, the root first. -/
def nodes : Node → List Node
  | .mk info children => .mk info children :: nodesAll children

/-- All nodes of several trees. -/
def nodesAll : List Node → List Node
  | [] => []
  | n :: ns => n.nodes ++ nodesAll ns

end

theorem nodesAll_eq_flatMap (ns : List Node) : nodesAll ns = ns.flatMap nodes := by
  induction ns with
  | nil => rw [nodesAll]; rfl
  | cons n ns ih => rw [nodesAll, ih, List.flatMap_cons]

theorem nodes_eq (n : Node) : n.nodes = n :: n.children.flatMap nodes := by
  cases n with
  | mk info children => rw [nodes, nodesAll_eq_flatMap]; rfl

@[simp] theorem self_mem_nodes (n : Node) : n ∈ n.nodes := by
  rw [nodes_eq]
  exact List.mem_cons_self

theorem mem_nodes_of_mem_children {n c m : Node} (hc : c ∈ n.children) (hm : m ∈ c.nodes) :
    m ∈ n.nodes := by
  rw [nodes_eq]
  exact List.mem_cons_of_mem _ (List.mem_flatMap.mpr ⟨c, hc, hm⟩)

theorem mem_nodes_trans {n c m : Node} (hc : c ∈ n.nodes) (hm : m ∈ c.nodes) : m ∈ n.nodes := by
  induction n using children_induction with
  | step n ih =>
    rw [nodes_eq, List.mem_cons, List.mem_flatMap] at hc
    rcases hc with rfl | ⟨d, hd, hc⟩
    · exact hm
    · exact mem_nodes_of_mem_children hd (ih d hd hc)

theorem nodesAll_append (ns ms : List Node) : nodesAll (ns ++ ms) = nodesAll ns ++ nodesAll ms := by
  simp only [nodesAll_eq_flatMap, List.flatMap_append]

theorem mem_nodesAll_trans {ns : List Node} {n m : Node} (hn : n ∈ nodesAll ns) (hm : m ∈ n.nodes) :
    m ∈ nodesAll ns := by
  rw [nodesAll_eq_flatMap, List.mem_flatMap] at hn ⊢
  obtain ⟨root, hroot, hn⟩ := hn
  exact ⟨root, hroot, mem_nodes_trans hn hm⟩

theorem mem_nodes_of_mem_namedChildren {n c m : Node} (hc : c ∈ n.namedChildren)
    (hm : m ∈ c.nodes) : m ∈ n.nodes :=
  mem_nodes_of_mem_children (mem_children_of_mem_namedChildren hc) hm

theorem mem_nodes_of_field? {n c m : Node} {name : String} (hc : n.field? name = some c)
    (hm : m ∈ c.nodes) : m ∈ n.nodes :=
  mem_nodes_of_mem_children (mem_children_of_field? hc) hm

/-! ## Moving a tree -/

mutual

/-- A tree with all offsets moved by some bytes. -/
def moved (k : Nat) : Node → Node
  | .mk info children =>
    .mk { info with start := info.start + k, stop := info.stop + k } (movedAll k children)

/-- Several trees with all offsets moved by some bytes. -/
def movedAll (k : Nat) : List Node → List Node
  | [] => []
  | n :: ns => n.moved k :: movedAll k ns

end

theorem movedAll_eq_map (k : Nat) (ns : List Node) : movedAll k ns = ns.map (moved k) := by
  induction ns with
  | nil => rw [movedAll]; rfl
  | cons n ns ih => rw [movedAll, ih, List.map_cons]

section Parts

variable (k : Nat) (n : Node)

theorem info_moved :
    (n.moved k).info = { n.info with start := n.info.start + k, stop := n.info.stop + k } := by
  cases n with
  | mk info children => rw [moved]; rfl

@[simp] theorem children_moved : (n.moved k).children = n.children.map (moved k) := by
  cases n with
  | mk info children => rw [moved, ← movedAll_eq_map]; rfl

@[simp] theorem kind_moved : (n.moved k).kind = n.kind := by rw [kind, info_moved]; rfl

@[simp] theorem start_moved : (n.moved k).start = n.start + k := by rw [start, info_moved]; rfl

@[simp] theorem stop_moved : (n.moved k).stop = n.stop + k := by rw [stop, info_moved]; rfl

@[simp] theorem namedChildren_moved :
    (n.moved k).namedChildren = n.namedChildren.map (moved k) := by
  simp only [namedChildren, children_moved, List.filter_map, Function.comp_def, info_moved]

@[simp] theorem field?_moved (name : String) :
    (n.moved k).field? name = (n.field? name).map (moved k) := by
  simp only [field?, children_moved, List.find?_map, Function.comp_def, info_moved]

theorem moved_zero : n.moved 0 = n := by
  induction n using children_induction with
  | step n ih =>
    cases n with
    | mk info children =>
      have hchildren : children.map (moved 0) = children :=
        (List.map_congr_left ih).trans (List.map_id' children)
      rw [moved, movedAll_eq_map, hchildren]
      rfl

theorem nodes_moved : (n.moved k).nodes = n.nodes.map (moved k) := by
  induction n using children_induction with
  | step n ih =>
    rw [nodes_eq, nodes_eq, children_moved, List.flatMap_map, List.map_cons, List.map_flatMap,
      List.flatMap_congr ih]

theorem nodesAll_map_moved (ns : List Node) :
    nodesAll (ns.map (moved k)) = (nodesAll ns).map (moved k) := by
  rw [nodesAll_eq_flatMap, nodesAll_eq_flatMap, List.flatMap_map, List.map_flatMap]
  exact List.flatMap_congr fun n _ => nodes_moved k n

end Parts

/-! ## Reading a moved tree -/

/-- **A tree is read the same where the text has moved with it.** -/
theorem bytes_moved {k : Nat} {before after : List UInt8} {n : Node}
    (h : before.drop (n.start + k) = after.drop n.start) :
    (n.moved k).bytes before = n.bytes after := by
  rw [bytes, start_moved, stop_moved, h, Nat.add_sub_add_right, bytes]

/-- A tree is read the same if the texts agree as far as it goes. -/
theorem bytes_congr {before after : List UInt8} {n : Node}
    (h : before.take n.stop = after.take n.stop) : n.bytes before = n.bytes after := by
  rw [bytes, bytes, ← List.drop_take, ← List.drop_take, h]

theorem text_congr {before after : List UInt8} {n m : Node} (h : n.bytes before = m.bytes after) :
    n.text before = m.text after := by
  rw [text, text, h]

end Node

open Node

/-! ## Walking a moved tree -/

/-- A visit with all offsets moved by some bytes. -/
def Visit.moved (k : Nat) (v : Visit) : Visit := ⟨v.node.moved k, v.ancestors.map (Node.moved k)⟩

/-- A visit to a tree that stands below some other nodes. -/
def Visit.below (path : List Node) (v : Visit) : Visit := ⟨v.node, path ++ v.ancestors⟩

theorem node_mem_nodes_of_mem_preorder {path : List Node} {n : Node} {v : Visit}
    (h : v ∈ preorder path n) : v.node ∈ n.nodes := by
  induction n using children_induction generalizing path with
  | step n ih =>
    rw [preorder_eq, List.mem_cons, List.mem_flatMap] at h
    rcases h with rfl | ⟨c, hc, h⟩
    · exact self_mem_nodes n
    · exact mem_nodes_of_mem_namedChildren hc (ih c (mem_children_of_mem_namedChildren hc) h)

/-- **A moved tree is walked like the tree.** -/
theorem preorder_moved (k : Nat) (path : List Node) (n : Node) :
    preorder (path.map (Node.moved k)) (n.moved k) = (preorder path n).map (Visit.moved k) := by
  induction n using children_induction generalizing path with
  | step n ih =>
    rw [preorder_eq, preorder_eq, namedChildren_moved, List.flatMap_map, List.map_cons,
      List.map_flatMap]
    congr 1
    refine List.flatMap_congr fun c hc => ?_
    rw [← ih c (mem_children_of_mem_namedChildren hc), List.map_append, List.map_singleton]

/-- A tree below other nodes is walked like the tree. -/
theorem preorder_append (above path : List Node) (n : Node) :
    preorder (above ++ path) n = (preorder path n).map (Visit.below above) := by
  induction n using children_induction generalizing path with
  | step n ih =>
    rw [preorder_eq, preorder_eq, List.map_cons, List.map_flatMap]
    congr 1
    refine List.flatMap_congr fun c hc => ?_
    rw [← ih c (mem_children_of_mem_namedChildren hc), List.append_assoc]

end PatchLint
