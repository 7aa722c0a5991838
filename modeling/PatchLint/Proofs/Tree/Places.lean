import Mathlib.Data.List.Infix
import PatchLint.Proofs.Tree.Moved

/-!
# The places that a walk comes to

Two nodes of a tree may be alike in everything, with all that is below them. So a node is told by its place here,
that is by the way that leads to it from child to child. In the order of the places a node stands in front of what
is below it, and what is below a child in front of the next child.

A walk comes to the places that are reached through named children. With a node it gives the nodes above it, and
these are the ones on the way to its place, wherever on the tree the walk has been just before.

* `Node.at?`, `Node.way` — the node at a place, and the nodes on the way to it
* `isAt_cons_iff` — a visit below a child is one of the child's own tree, with the node above it
* `mem_placedVisits_iff`, `pairwise_placedVisits` — the visits with their places, in the order of the places
* `map_snd_placedVisits` — they are the visits in pre-order
* `walk_exact` — a walk comes to each place that is reached, once and in order, and knows the way
-/

namespace PatchLint

open Node

/-! ## Places -/

/-- The node that a place leads to: from each node to the child with the next index. -/
def Node.at? : Node → List Nat → Option Node
  | n, [] => some n
  | n, i :: place => n.children[i]?.bind (·.at? place)

/-- The nodes on the way to a place: the one where the way starts, then the one after each step. -/
def Node.way (n : Node) (place : List Nat) : List (Option Node) := place.inits.map n.at?

@[simp] theorem Node.way_nil (n : Node) : n.way [] = [some n] := rfl

theorem Node.way_cons (n : Node) (i : Nat) (place : List Nat) :
    n.way (i :: place) = some n :: place.inits.map fun front => n.children[i]?.bind (·.at? front) := by
  rw [way, List.inits_cons, List.map_cons, List.map_map]
  rfl

theorem Node.way_cons_of_child {n c : Node} {i : Nat} (h : n.children[i]? = some c) (place : List Nat) :
    n.way (i :: place) = some n :: c.way place := by
  rw [way_cons, h]
  rfl

theorem Node.head?_way (n : Node) (place : List Nat) : (n.way place).head? = some (some n) := by
  cases place with
  | nil => rfl
  | cons i place => rw [way_cons, List.head?_cons]

/-- The second node on a way is the child that the first step leads to. -/
theorem Node.getElem?_children_of_way {n c : Node} {i : Nat} {place : List Nat} {rest : List (Option Node)}
    (h : n.way (i :: place) = some n :: some c :: rest) : n.children[i]? = some c := by
  have hstep : n.children[i]?.bind (·.at? []) = some c := by
    rw [way_cons] at h
    cases place <;> exact (List.cons.inj (List.cons.inj h).2).1
  obtain ⟨d, hd, hdc⟩ := Option.bind_eq_some_iff.mp hstep
  rw [hd, ← hdc]
  rfl

/-! ## Visits at places -/

/-- The nodes from the root to the node that is visited. -/
def Visit.lineage (v : Visit) : List Node := v.ancestors ++ [v.node]

/-- Whether a visit is to the node at a place: the nodes above it and then the node itself are those on the way to
the place, and all of them but the root are named. -/
structure Visit.IsAt (v : Visit) (root : Node) (place : List Nat) : Prop where
  way : root.way place = v.lineage.map some
  named : ∀ n ∈ v.lineage.tail, n.info.named = true

theorem Visit.lineage_below (n : Node) (v : Visit) : (v.below [n]).lineage = n :: v.lineage := rfl

theorem Visit.IsAt.lineage_eq {v : Visit} {n : Node} {place : List Nat} (h : v.IsAt n place) :
    v.lineage = n :: v.lineage.tail := by
  have hhead := n.head?_way place
  rw [h.way, List.head?_map, Option.map_eq_some_iff] at hhead
  obtain ⟨m, hm, hmn⟩ := hhead
  rw [Option.some.inj hmn] at hm
  exact (List.cons_head?_tail hm).symm

theorem isAt_nil_iff {v : Visit} {n : Node} : v.IsAt n [] ↔ v = ⟨n, []⟩ := by
  constructor
  · intro h
    obtain ⟨m, ancestors⟩ := v
    have hway : [some n] = (ancestors ++ [m]).map some := h.way
    cases ancestors with
    | nil => cases hway; rfl
    | cons a ancestors => simp at hway
  · rintro rfl
    exact ⟨rfl, by simp [Visit.lineage]⟩

/-- **A visit below a child is one of the child's own tree, with the node above it.** -/
theorem isAt_cons_iff {v : Visit} {n : Node} {i : Nat} {place : List Nat} :
    v.IsAt n (i :: place) ↔
      ∃ (c : Node) (w : Visit), n.children[i]? = some c ∧ c.info.named = true ∧ w.IsAt c place ∧
        w.below [n] = v := by
  constructor
  · intro h
    obtain ⟨m, ancestors⟩ := v
    cases ancestors with
    | nil =>
      -- a way with a step has more than one node on it
      have hway := h.way
      cases place <;> simp [way_cons, Visit.lineage] at hway
    | cons a ancestors =>
      obtain rfl : a = n := (List.cons.inj h.lineage_eq).1
      -- the visit without the first node on the way is one in the tree of the child
      let w : Visit := ⟨m, ancestors⟩
      have hway : a.way (i :: place) = some a :: w.lineage.map some := h.way
      have hnamed : ∀ d ∈ w.lineage, d.info.named = true := h.named
      obtain ⟨c, rest, hlineage⟩ : ∃ c rest, w.lineage = c :: rest :=
        List.exists_cons_of_ne_nil (List.concat_ne_nil m ancestors)
      have hc : a.children[i]? = some c := by
        rw [hlineage, List.map_cons] at hway
        exact getElem?_children_of_way hway
      rw [way_cons_of_child hc] at hway
      have hw : w.IsAt c place :=
        ⟨(List.cons.inj hway).2, fun d hd => hnamed d (List.mem_of_mem_tail hd)⟩
      exact ⟨c, w, hc, hnamed c (hlineage ▸ List.mem_cons_self), hw, rfl⟩
  · rintro ⟨c, w, hc, hnamed, hw, rfl⟩
    refine ⟨?_, ?_⟩
    · rw [way_cons_of_child hc, hw.way, Visit.lineage_below, List.map_cons]
    · rw [Visit.lineage_below, List.tail_cons, hw.lineage_eq]
      exact List.forall_mem_cons.mpr ⟨hnamed, hw.named⟩

/-! ## Indices -/

/-- The named children, each with its index among all children. -/
def indexedNamed (n : Node) : List (Node × Nat) := n.children.zipIdx.filter (·.1.info.named)

theorem map_fst_indexedNamed (n : Node) : (indexedNamed n).map (·.1) = n.namedChildren := by
  rw [indexedNamed, namedChildren, ← List.zipIdx_map_fst 0 n.children, List.filter_map]
  simp [Function.comp_def]

theorem mem_indexedNamed_iff {n c : Node} {i : Nat} :
    (c, i) ∈ indexedNamed n ↔ n.children[i]? = some c ∧ c.info.named = true := by
  rw [indexedNamed, List.mem_filter, List.mem_zipIdx_iff_getElem?]

theorem mem_children_of_mem_indexedNamed {n : Node} {x : Node × Nat} (h : x ∈ indexedNamed n) :
    x.1 ∈ n.children :=
  List.mem_of_getElem? (mem_indexedNamed_iff.mp h).1

theorem pairwise_zipIdx {α : Type} (l : List α) : l.zipIdx.Pairwise fun x y => x.2 < y.2 := by
  rw [← List.pairwise_map, List.zipIdx_map_snd]
  exact List.pairwise_lt_range'

theorem pairwise_indexedNamed (n : Node) : (indexedNamed n).Pairwise fun x y => x.2 < y.2 :=
  (pairwise_zipIdx n.children).filter _

/-! ## Visits with their places -/

/-- The visits to the nodes that are reached from a node through named children, each with its place. -/
def placedVisits (n : Node) : List (List Nat × Visit) :=
  ([], ⟨n, []⟩) :: (indexedNamed n).attach.flatMap fun ⟨(c, i), _⟩ =>
    (placedVisits c).map fun x => (i :: x.1, x.2.below [n])
termination_by n.count
decreasing_by exact count_lt_of_mem_children (mem_children_of_mem_indexedNamed ‹_›)

theorem placedVisits_eq (n : Node) :
    placedVisits n = ([], ⟨n, []⟩) :: (indexedNamed n).flatMap fun child =>
      (placedVisits child.1).map fun x => (child.2 :: x.1, x.2.below [n]) := by
  rw [placedVisits]
  simp only [List.flatMap_subtype, List.unattach_attach]

/-- Without their places, these are the visits in pre-order. -/
theorem map_snd_placedVisits (n : Node) : (placedVisits n).map (·.2) = preorder [] n := by
  induction n using children_induction with
  | step n ih =>
    rw [placedVisits_eq, preorder_eq, ← map_fst_indexedNamed, List.flatMap_map, List.map_cons, List.map_flatMap]
    congr 1
    refine List.flatMap_congr fun child hchild => ?_
    have hbelow := preorder_append [n] [] child.1
    rw [List.append_nil] at hbelow
    rw [List.nil_append, hbelow, ← ih child.1 (mem_children_of_mem_indexedNamed hchild), List.map_map,
      List.map_map]
    rfl

/-- **The places are those that are reached through named children.** -/
theorem mem_placedVisits_iff {n : Node} {place : List Nat} {v : Visit} :
    (place, v) ∈ placedVisits n ↔ v.IsAt n place := by
  induction n using children_induction generalizing place v with
  | step n ih =>
    rw [placedVisits_eq, List.mem_cons, List.mem_flatMap]
    simp only [List.mem_map, Prod.mk.injEq]
    cases place with
    | nil => simp [isAt_nil_iff]
    | cons i place =>
      rw [isAt_cons_iff]
      constructor
      · rintro (⟨hplace, -⟩ | ⟨⟨c, j⟩, hchild, ⟨below, w⟩, hw, hplace, hv⟩)
        · cases hplace
        · obtain ⟨rfl, rfl⟩ := List.cons.inj hplace
          obtain ⟨hc, hnamed⟩ := mem_indexedNamed_iff.mp hchild
          exact ⟨c, w, hc, hnamed, (ih c (List.mem_of_getElem? hc)).mp hw, hv⟩
      · rintro ⟨c, w, hc, hnamed, hw, hv⟩
        exact .inr ⟨(c, i), mem_indexedNamed_iff.mpr ⟨hc, hnamed⟩, (place, w),
          (ih c (List.mem_of_getElem? hc)).mpr hw, rfl, hv⟩

/-- **The visits are in the order of their places.** -/
theorem pairwise_placedVisits (n : Node) : (placedVisits n).Pairwise fun x y => x.1 < y.1 := by
  induction n using children_induction with
  | step n ih =>
    rw [placedVisits_eq, List.pairwise_cons, List.pairwise_flatMap]
    refine ⟨fun y hy => ?_, fun child hchild => ?_, (pairwise_indexedNamed n).imp fun {c d} hlt => ?_⟩
    · -- the node itself stands in front of all that is below it
      obtain ⟨child, -, hy⟩ := List.mem_flatMap.mp hy
      obtain ⟨x, -, rfl⟩ := List.mem_map.mp hy
      exact List.nil_lt_cons _ _
    · rw [List.pairwise_map]
      refine (ih child.1 (mem_children_of_mem_indexedNamed hchild)).imp fun hlt => ?_
      exact List.cons_lt_cons_iff.mpr (Or.inr ⟨rfl, hlt⟩)
    · -- what is below different children is in the order of the children
      intro a ha b hb
      obtain ⟨a, -, rfl⟩ := List.mem_map.mp ha
      obtain ⟨b, -, rfl⟩ := List.mem_map.mp hb
      exact List.cons_lt_cons_iff.mpr (Or.inl hlt)

/-- **A walk comes to each place that is reached through named children, once and in order, and knows the way.**
It lists what the recursion over the tree lists: a node, then the trees of its named children in turn. Each visit
is to the node at one place, and with the node the visit gives the nodes on the way from the root to its parent.
The places get larger from each visit to the next, so none comes twice; and all that are reached come. -/
theorem walk_exact (root : Node) :
    walk root = preorder [] root ∧
    ∃ placed : List (List Nat × Visit), placed.map (·.2) = walk root ∧
      placed.Pairwise (fun x y => x.1 < y.1) ∧
      ∀ place v, (place, v) ∈ placed ↔ v.IsAt root place := by
  refine ⟨walk_eq_preorder root, placedVisits root, ?_, pairwise_placedVisits root,
    fun _ _ => mem_placedVisits_iff⟩
  rw [map_snd_placedVisits, walk_eq_preorder]

/-- From a call deep in the tree the walk goes on to a child of the root, and the path is cut back to the root. What
is below a node without a name is not visited. -/
example :
    let node (kind : String) (named : Bool) : List Node → Node := .mk ⟨kind, 0, 0, named, false, false, []⟩
    let call := node "call" true [node "callee" true [], node "(" false [node "hidden" true []]]
    let root := node "program" true [node "statement" true [call], node ";" false [], node "comment" true []]
    (walk root).map (fun v => (v.node.kind, v.ancestors.map Node.kind)) =
      [("program", []), ("statement", ["program"]), ("call", ["program", "statement"]),
        ("callee", ["program", "statement", "call"]), ("comment", ["program"])] := by
  decide +kernel

end PatchLint
