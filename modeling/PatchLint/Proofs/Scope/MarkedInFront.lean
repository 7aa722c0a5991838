import Mathlib.Data.List.Flatten
import PatchLint.Proofs.Scope.StatementUses

/-!
# Marks come in time

Whether a name is a use is decided when it is visited, by the spans that are marked in front of it. No
later node can change this: a node marks only nodes below itself, and in pre-order these come after it.
So the nodes that it marks are others than the names in front of it, and as long as a tree has no two
such nodes with the same span (`NamesApart`), the spans that are excluded in the end decide as well.

* `sublist_nodes_of_mem_fronted` — what is visited in front of a node stands in front of all its nodes
* `span_mem_markedBy_front_iff` — a name that is marked at all is marked in front of its visit
* `usesOf_eq_unmarked` — the uses are the names that nothing marks
* `references_eq_unexcluded` — the scope of a tree holds just the names that are not excluded
-/

namespace PatchLint

open Node

/-! ## Places in a list -/

/-- An element stands behind a front if the list goes on with it after this front. -/
theorem mem_fronted_iff {α : Type} {front as : List α} {item : List α × α} :
    item ∈ fronted front as
      ↔ ∃ before after, as = before ++ item.2 :: after ∧ item.1 = front ++ before := by
  induction as generalizing front with
  | nil => simp [fronted]
  | cons a as ih =>
    rw [fronted, List.mem_cons, ih]
    constructor
    · rintro (rfl | ⟨before, after, rfl, hfront⟩)
      · exact ⟨[], as, rfl, (List.append_nil front).symm⟩
      · exact ⟨a :: before, after, rfl, by rw [hfront, List.append_assoc, List.singleton_append]⟩
    · rintro ⟨before, after, has, hfront⟩
      cases before with
      | nil =>
        obtain ⟨rfl, -⟩ := List.cons.inj has
        rw [List.append_nil] at hfront
        exact Or.inl (Prod.ext hfront rfl)
      | cons b before =>
        obtain ⟨rfl, rfl⟩ := List.cons.inj has
        exact Or.inr ⟨before, after, rfl, by rw [hfront, List.append_assoc, List.singleton_append]⟩

/-! ## Places in a tree -/

/-- The walk visits nodes of the tree in their order. -/
theorem map_node_preorder_sublist (path : List Node) (n : Node) :
    ((preorder path n).map (·.node)).Sublist n.nodes := by
  induction n using children_induction generalizing path with
  | step n ih =>
    rw [preorder_eq, nodes_eq, List.map_cons, List.map_flatMap]
    refine List.Sublist.cons_cons n ?_
    have hnamed : n.namedChildren.Sublist n.children := List.filter_sublist
    refine (List.Sublist.flatMap_right _ fun c hc => ?_).trans (hnamed.flatMap nodes)
    exact ih c (mem_children_of_mem_namedChildren hc) _

/-- The same for trees side by side, given each of them. -/
theorem sublist_flatMap_nodes {path : List Node} {ns : List Node}
    (h : ∀ n ∈ ns, ∀ item ∈ fronted [] (preorder path n),
      (item.1.map (·.node) ++ item.2.node.nodes).Sublist n.nodes)
    {item : List Visit × Visit} (hitem : item ∈ fronted [] (ns.flatMap (preorder path))) :
    (item.1.map (·.node) ++ item.2.node.nodes).Sublist (ns.flatMap nodes) := by
  induction ns generalizing item with
  | nil => cases hitem
  | cons n ns ih =>
    rw [List.flatMap_cons, fronted_append, List.nil_append, List.mem_append] at hitem
    rw [List.flatMap_cons]
    rcases hitem with hitem | hitem
    · exact (h n List.mem_cons_self item hitem).trans (List.sublist_append_left _ _)
    · -- the whole tree is visited in front of the trees behind it
      rw [fronted_eq_map] at hitem
      obtain ⟨later, hlater, rfl⟩ := List.mem_map.mp hitem
      rw [List.map_append, List.append_assoc]
      exact (map_node_preorder_sublist path n).append
        (ih (fun m hm => h m (List.mem_cons_of_mem n hm)) hlater)

/-- **What is visited in front of a node stands in front of all its nodes.** -/
theorem sublist_nodes_of_mem_fronted {path : List Node} {root : Node} {item : List Visit × Visit}
    (h : item ∈ fronted [] (preorder path root)) :
    (item.1.map (·.node) ++ item.2.node.nodes).Sublist root.nodes := by
  induction root using children_induction generalizing path item with
  | step n ih =>
    rw [preorder_eq, fronted, List.nil_append, fronted_eq_map, List.mem_cons] at h
    rcases h with rfl | h
    · exact List.Sublist.refl n.nodes
    · obtain ⟨below, hbelow, rfl⟩ := List.mem_map.mp h
      have hnamed : n.namedChildren.Sublist n.children := List.filter_sublist
      rw [nodes_eq n]
      refine List.Sublist.cons_cons n (List.Sublist.trans ?_ (hnamed.flatMap nodes))
      exact sublist_flatMap_nodes
        (fun c hc _ hitem => ih c (mem_children_of_mem_namedChildren hc) hitem) hbelow

/-! ## Names and marks -/

/-- Whether a node is a name, of a value or of a type. -/
def IsName (n : Node) : Prop := n.kind ∈ valueNameKinds ++ typeNameKinds

instance (n : Node) : Decidable (IsName n) :=
  inferInstanceAs (Decidable (n.kind ∈ valueNameKinds ++ typeNameKinds))

/-- Whether one of the visited nodes of a tree marks a node. -/
def IsMarkedIn (source : List UInt8) (root n : Node) : Prop :=
  ∃ v ∈ preorder [] root, n ∈ (contribution source v).named

/-- Whether spans tell names from marked nodes: at two places of the tree, a name and a marked node
have different spans. -/
def NamesApart (source : List UInt8) (root : Node) : Prop :=
  root.nodes.Pairwise fun n m =>
    IsName n ∧ IsMarkedIn source root m ∨ IsMarkedIn source root n ∧ IsName m → n.span ≠ m.span

variable {source : List UInt8} {root : Node}

/-- It is enough that names have other spans than all other nodes. -/
theorem namesApart_of_distinct
    (h : root.nodes.Pairwise fun n m => IsName n ∨ IsName m → n.span ≠ m.span) :
    NamesApart source root :=
  h.imp fun hspan hnames => hspan (hnames.imp And.left And.right)

/-- A name marks nothing. -/
theorem not_isName_of_mem_named {v : Visit} {m : Node} (h : m ∈ (contribution source v).named) :
    ¬IsName v.node := by
  intro hname
  rw [(observe_name source {} hname).1] at h
  cases h

/-- **A name that is marked at all is marked in front of its visit.** -/
theorem span_mem_markedBy_front_iff (h : NamesApart source root) {item : List Visit × Visit}
    (hitem : item ∈ fronted [] (preorder [] root)) (hname : IsName item.2.node) :
    item.2.node.span ∈ markedBy source item.1
      ↔ item.2.node.span ∈ markedBy source (preorder [] root) := by
  obtain ⟨front, name⟩ := item
  obtain ⟨_, after, hvisits, rfl⟩ := mem_fronted_iff.mp hitem
  dsimp only at hvisits hname ⊢
  constructor
  · intro hspan
    obtain ⟨v, hv, hspan⟩ := List.mem_flatMap.mp hspan
    exact List.mem_flatMap.mpr ⟨v, front_subset_of_mem_fronted hitem hv, hspan⟩
  · intro hspan
    obtain ⟨v, hv, hspan⟩ := List.mem_flatMap.mp hspan
    rw [markedSpans_eq] at hspan
    obtain ⟨m, hm, hspan⟩ := List.mem_map.mp hspan
    have hmarked : IsMarkedIn source root m := ⟨v, hv, hm⟩
    rw [hvisits, List.mem_append, List.mem_cons] at hv
    rcases hv with hv | rfl | hv
    · refine List.mem_flatMap.mpr ⟨v, hv, ?_⟩
      rw [markedSpans_eq, ← hspan]
      exact List.mem_map_of_mem hm
    · exact absurd hname (not_isName_of_mem_named hm)
    · -- a node behind the name marks nodes that stand behind the name too
      obtain ⟨between, rest, rfl⟩ := List.append_of_mem hv
      have hplace : (front ++ name :: between, v) ∈ fronted [] (preorder [] root) :=
        mem_fronted_iff.mpr ⟨front ++ name :: between, rest, by simp [hvisits], rfl⟩
      have hfront : [name.node].Sublist ((front ++ name :: between).map (·.node)) :=
        List.singleton_sublist.mpr (List.mem_map_of_mem (by simp))
      have hbelow : [m].Sublist v.node.nodes :=
        List.singleton_sublist.mpr (contribution_within source v m hm)
      have hpair := h.sublist ((hfront.append hbelow).trans (sublist_nodes_of_mem_fronted hplace))
      exact absurd hspan.symm (List.pairwise_pair.mp hpair (Or.inl ⟨hname, hmarked⟩))

/-! ## Uses -/

/-- **The uses are the names that nothing marks,** neither in front of them nor behind. -/
theorem usesOf_eq_unmarked (h : NamesApart source root) {kinds : List String}
    (hkinds : kinds ⊆ valueNameKinds ++ typeNameKinds) :
    usesOf kinds source (preorder [] root)
      = ((preorder [] root).filter fun v => v.node.kind ∈ kinds ∧
          v.node.span ∉ markedBy source (preorder [] root)).map fun v =>
            (v.node.text source, v.node.start) := by
  have huse : ∀ item ∈ fronted [] (preorder [] root),
      useOf? kinds source (markedBy source item.1) item.2.node
        = useOf? kinds source (markedBy source (preorder [] root)) item.2.node := by
    intro item hitem
    by_cases hkind : item.2.node.kind ∈ kinds
    · exact useOf?_congr (span_mem_markedBy_front_iff h hitem (hkinds hkind))
    · rw [useOf?_eq_none hkind, useOf?_eq_none hkind]
  calc usesOf kinds source (preorder [] root)
    _ = ((fronted [] (preorder [] root)).map (·.2)).filterMap fun v =>
          useOf? kinds source (markedBy source (preorder [] root)) v.node := by
        rw [usesOf, List.filterMap_congr huse, List.filterMap_map]
        rfl
    _ = _ := by
        rw [map_snd_fronted, ← List.filterMap_eq_map, List.filterMap_filter]
        simp only [useOf?, decide_eq_true_eq, Function.comp_apply]

/-- **The scope of a tree holds just the names that are not excluded.** The references are the names of
values with a span that is not excluded in the end, in pre-order, and the references to types are the
names of types with such a span. -/
theorem references_eq_unexcluded (h : NamesApart source root) :
    let s := scopeOf source root
    s.references = Scope.tableOf Scope.offsetsOf
        (((preorder [] root).filter fun v =>
            v.node.kind ∈ ["identifier", "shorthand_property_identifier"] ∧
              v.node.span ∉ s.excluded).map fun v => (v.node.text source, v.node.start)) ∧
      ∀ name, name ∈ s.typeReferences ↔ ∃ v ∈ preorder [] root,
        v.node.kind = "type_identifier" ∧ v.node.span ∉ s.excluded ∧ v.node.text source = name := by
  have hvalues : valueNameKinds ⊆ valueNameKinds ++ typeNameKinds := List.subset_append_left _ _
  have htypes : typeNameKinds ⊆ valueNameKinds ++ typeNameKinds := List.subset_append_right _ _
  rw [scopeOf_eq_scopeAfter]
  dsimp only
  simp only [mem_excluded_scopeAfter]
  constructor
  · rw [references_scopeAfter, usesOf_eq_unmarked h hvalues]
    rfl
  · intro name
    rw [mem_typeReferences_scopeAfter, usesOf_eq_unmarked h htypes]
    simp [typeNameKinds, and_assoc]

/-- A source with names that are uses and names that are none. -/
def specifierSource : List UInt8 :=
  Utf8.encode "import {a as b} from 'm'; let c: T = f({b});".toList

/-- The tree of this source. -/
def specifierTree : Node :=
  let node (kind : String) (start stop : Nat) (fields : List String) (children : List Node) : Node :=
    .mk ⟨kind, start, stop, true, false, false, fields⟩ children
  node "program" 0 44 []
    [node "import_statement" 0 25 []
      [node "import_clause" 7 15 []
        [node "named_imports" 7 15 []
          [node "import_specifier" 8 14 []
            [node "identifier" 8 9 ["name"] [], node "identifier" 13 14 ["alias"] []]]],
       node "string" 21 24 ["source"] []],
     node "lexical_declaration" 26 44 []
      [node "variable_declarator" 30 43 []
        [node "identifier" 30 31 ["name"] [],
         node "type_annotation" 31 34 ["type"] [node "type_identifier" 33 34 [] []],
         node "call_expression" 37 43 ["value"]
          [node "identifier" 37 38 ["function"] [],
           node "arguments" 38 43 ["arguments"]
            [node "object" 39 42 [] [node "shorthand_property_identifier" 40 41 [] []]]]]]]

/-- Of the names of this source `f` and the last `b` are uses, and `T` is a use as a type. -/
theorem references_eq_unexcluded_specifier :
    NamesApart specifierSource specifierTree ∧
      (scopeOf specifierSource specifierTree).excluded = [(8, 9), (13, 14), (30, 31)] ∧
      (scopeOf specifierSource specifierTree).references = [("f", [37]), ("b", [40])] ∧
      "T" ∈ (scopeOf specifierSource specifierTree).typeReferences := by
  have happart : NamesApart specifierSource specifierTree :=
    namesApart_of_distinct (by decide +kernel)
  obtain ⟨hvalues, htypes⟩ := references_eq_unexcluded happart
  refine ⟨happart, by decide +kernel, ?_, (htypes "T").mpr (by decide +kernel)⟩
  rw [hvalues]
  decide +kernel

end PatchLint
