import PatchLint.Proofs.Scope.Relocation
import PatchLint.Proofs.Scope.Visited

/-!
# Uses, statement by statement

Whether a name is a use depends on the spans that are marked in front of it. A statement marks only
spans of its own nodes, so its uses do not depend on the statements beside it, as long as these have
other spans. The uses of a program are those of its statements, one after another, and statements that
have moved have the same uses at other places.

* `usesOf_append` — visits that mark no other spans leave the uses of the others alone
* `usesOf_relocated` — moved visits use the same names
* `treeUses_append`, `treeUses_moved` — the same for statements
* `uses_scopeOf_program` — the scope of a program records the uses of its statements
-/

namespace PatchLint

open Node

/-! ## Fronts -/

section Fronts

variable {α β : Type}

theorem fronted_append (front as bs : List α) :
    fronted front (as ++ bs) = fronted front as ++ fronted (front ++ as) bs := by
  induction as generalizing front with
  | nil => rw [List.append_nil]; rfl
  | cons a as ih =>
    rw [List.cons_append, fronted, fronted, ih, List.append_assoc, List.singleton_append,
      List.cons_append]

theorem fronted_append_front (more front as : List α) :
    fronted (more ++ front) as = (fronted front as).map fun item => (more ++ item.1, item.2) := by
  induction as generalizing front with
  | nil => rfl
  | cons a as ih => rw [fronted, fronted, List.map_cons, ← ih, List.append_assoc]

theorem fronted_eq_map (front as : List α) :
    fronted front as = (fronted [] as).map fun item => (front ++ item.1, item.2) := by
  rw [← fronted_append_front, List.append_nil]

theorem fronted_map (f : α → β) (front as : List α) :
    fronted (front.map f) (as.map f)
      = (fronted front as).map fun item => (item.1.map f, f item.2) := by
  induction as generalizing front with
  | nil => rfl
  | cons a as ih =>
    rw [List.map_cons, fronted, fronted, List.map_cons, ← ih, List.map_append, List.map_singleton]

theorem mem_of_mem_fronted {front as : List α} {item : List α × α} (h : item ∈ fronted front as) :
    item.2 ∈ as := by
  rw [← map_snd_fronted front as]
  exact List.mem_map_of_mem h

theorem front_subset_of_mem_fronted {front as : List α} {item : List α × α}
    (h : item ∈ fronted front as) : item.1 ⊆ front ++ as := by
  induction as generalizing front with
  | nil => cases h
  | cons a as ih =>
    rcases List.mem_cons.mp h with rfl | h
    · exact List.subset_append_left front (a :: as)
    · have hsub := ih h
      rwa [List.append_assoc, List.singleton_append] at hsub

end Fronts

/-! ## Uses of visits -/

section Visits

variable {kinds : List String} {source : List UInt8}

theorem useOf?_congr {marked marked' : List (Nat × Nat)} {n : Node}
    (h : n.span ∈ marked ↔ n.span ∈ marked') :
    useOf? kinds source marked n = useOf? kinds source marked' n := by
  simp only [useOf?, h]

/-- **Visits that mark none of their spans leave the uses of other visits alone.** -/
theorem usesOf_append {visits more : List Visit}
    (h : ∀ v ∈ more, v.node.span ∉ markedBy source visits) :
    usesOf kinds source (visits ++ more)
      = usesOf kinds source visits ++ usesOf kinds source more := by
  rw [usesOf, fronted_append, List.filterMap_append, List.nil_append, fronted_eq_map visits,
    List.filterMap_map, usesOf, usesOf]
  congr 1
  refine List.filterMap_congr fun item hitem => ?_
  refine useOf?_congr ?_
  rw [markedBy, List.flatMap_append, List.mem_append]
  exact or_iff_right (h item.2 (mem_of_mem_fronted hitem))

/-- A use is that of a name of one of the kinds. -/
theorem exists_name_of_mem_usesOf {visits : List Visit} {use : String × Nat}
    (h : use ∈ usesOf kinds source visits) :
    ∃ v ∈ visits, v.node.kind ∈ kinds ∧ use = (v.node.text source, v.node.start) := by
  obtain ⟨item, hitem, huse⟩ := List.mem_filterMap.mp h
  rw [useOf?] at huse
  split at huse
  · next hname =>
    cases huse
    exact ⟨item.2, mem_of_mem_fronted hitem, hname.1, rfl⟩
  · cases huse

end Visits

/-! ## Uses of moved visits -/

/-- A span moved by some bytes. -/
def movedSpan (k : Nat) (span : Nat × Nat) : Nat × Nat := (span.1 + k, span.2 + k)

theorem movedSpan_injective (k : Nat) : Function.Injective (movedSpan k) := by
  rintro ⟨a, b⟩ ⟨c, d⟩ h
  obtain ⟨hstart, hstop⟩ := Prod.mk.inj h
  exact Prod.ext (Nat.add_right_cancel hstart) (Nat.add_right_cancel hstop)

theorem span_moved (k : Nat) (n : Node) : (n.moved k).span = movedSpan k n.span := by
  rw [span, start_moved, stop_moved]
  rfl

/-- A use moved by some bytes. -/
def movedUse (k : Nat) (use : String × Nat) : String × Nat := (use.1, use.2 + k)

/-- Whether a visit goes to the moved node of another one, and both read the same there. -/
structure Relocates (k : Nat) (before after : List UInt8) (w v : Visit) : Prop where
  node : w.node = v.node.moved k
  path : isPassedOn w.ancestors = isPassedOn v.ancestors
  bytes : ∀ m ∈ v.node.nodes, (m.moved k).bytes before = m.bytes after

section Relocated

variable {kinds : List String} {k : Nat} {before after : List UInt8}

theorem Relocates.markedSpans_eq {w v : Visit} (h : Relocates k before after w v) :
    markedSpans before w = (markedSpans after v).map (movedSpan k) := by
  have hcontribution : contribution before w = (contribution after v).moved k := by
    refine contribution_moved h.node h.path fun name hname => ?_
    exact text_congr (h.bytes name (mem_nodes_of_field? hname (self_mem_nodes name)))
  rw [PatchLint.markedSpans_eq, hcontribution, Contribution.named_moved, List.map_map,
    PatchLint.markedSpans_eq, List.map_map]
  refine List.map_congr_left fun n _ => ?_
  exact span_moved k n

theorem Relocates.useOf?_eq {w v : Visit} (h : Relocates k before after w v)
    (marked : List (Nat × Nat)) :
    useOf? kinds before (marked.map (movedSpan k)) w.node
      = (useOf? kinds after marked v.node).map (movedUse k) := by
  have htext : w.node.text before = v.node.text after := by
    rw [h.node]
    exact text_congr (h.bytes v.node (self_mem_nodes v.node))
  have hcond : (w.node.kind ∈ kinds ∧ w.node.span ∉ marked.map (movedSpan k))
      ↔ (v.node.kind ∈ kinds ∧ v.node.span ∉ marked) := by
    rw [h.node, kind_moved, span_moved, List.mem_map_of_injective (movedSpan_injective k)]
  have hstart : w.node.start = v.node.start + k := by rw [h.node, start_moved]
  rw [useOf?, useOf?, htext, hstart]
  by_cases huse : v.node.kind ∈ kinds ∧ v.node.span ∉ marked
  · rw [if_pos huse, if_pos (hcond.mpr huse)]
    rfl
  · rw [if_neg huse, if_neg fun hw => huse (hcond.mp hw)]
    rfl

/-- **Moved visits use the same names,** at the moved places. -/
theorem usesOf_relocated {f : Visit → Visit} {visits : List Visit}
    (h : ∀ v ∈ visits, Relocates k before after (f v) v) :
    usesOf kinds before (visits.map f) = (usesOf kinds after visits).map (movedUse k) := by
  have hfronted := fronted_map f [] visits
  rw [List.map_nil] at hfronted
  rw [usesOf, usesOf, hfronted, List.filterMap_map, List.map_filterMap]
  refine List.filterMap_congr fun item hitem => ?_
  -- the visits in front mark the moved spans
  have hmarked : markedBy before (item.1.map f) = (markedBy after item.1).map (movedSpan k) := by
    rw [markedBy, markedBy, List.flatMap_map, List.map_flatMap]
    refine List.flatMap_congr fun v hv => (h v ?_).markedSpans_eq
    exact front_subset_of_mem_fronted hitem hv
  show useOf? kinds before (markedBy before (item.1.map f)) (f item.2).node = _
  rw [hmarked]
  exact (h item.2 (mem_of_mem_fronted hitem)).useOf?_eq _

end Relocated

/-! ## Uses of statements -/

/-- The uses of values in trees that stand side by side. -/
def treeUses (source : List UInt8) (ns : List Node) : List (String × Nat) :=
  usesOf valueNameKinds source (ns.flatMap (preorder []))

section Trees

variable {source : List UInt8} {ns ms : List Node}

theorem node_mem_nodesAll_of_mem_flatMap {v : Visit} (h : v ∈ ns.flatMap (preorder [])) :
    v.node ∈ nodesAll ns := by
  obtain ⟨n, hn, hv⟩ := List.mem_flatMap.mp h
  rw [nodesAll_eq_flatMap]
  exact List.mem_flatMap.mpr ⟨n, hn, node_mem_nodes_of_mem_preorder hv⟩

/-- Trees mark only spans of their own nodes. -/
theorem exists_of_mem_markedBy {span : Nat × Nat}
    (h : span ∈ markedBy source (ns.flatMap (preorder []))) : ∃ n ∈ nodesAll ns, n.span = span := by
  obtain ⟨v, hv, hspan⟩ := List.mem_flatMap.mp h
  rw [markedSpans_eq] at hspan
  obtain ⟨n, hn, rfl⟩ := List.mem_map.mp hspan
  have hbelow := contribution_within source v n hn
  exact ⟨n, mem_nodesAll_trans (node_mem_nodesAll_of_mem_flatMap hv) hbelow, rfl⟩

theorem exists_node_of_mem_treeUses {use : String × Nat} (h : use ∈ treeUses source ns) :
    ∃ n ∈ nodesAll ns, n.start = use.2 := by
  obtain ⟨v, hv, -, rfl⟩ := exists_name_of_mem_usesOf h
  exact ⟨v.node, node_mem_nodesAll_of_mem_flatMap hv, rfl⟩

/-- **Trees with different spans have their own uses.** -/
theorem treeUses_append (h : ∀ n ∈ nodesAll ns, ∀ m ∈ nodesAll ms, n.span ≠ m.span) :
    treeUses source (ns ++ ms) = treeUses source ns ++ treeUses source ms := by
  rw [treeUses, List.flatMap_append]
  refine usesOf_append fun v hv hmarked => ?_
  obtain ⟨n, hn, hspan⟩ := exists_of_mem_markedBy hmarked
  exact h n hn v.node (node_mem_nodesAll_of_mem_flatMap hv) hspan

/-- **Moved trees use the same names,** at the moved places. -/
theorem treeUses_moved {k : Nat} {before after : List UInt8}
    (h : ∀ n ∈ nodesAll ns, (n.moved k).bytes before = n.bytes after) :
    treeUses before (ns.map (moved k)) = (treeUses after ns).map (movedUse k) := by
  have hvisits : (ns.map (moved k)).flatMap (preorder [])
      = (ns.flatMap (preorder [])).map (Visit.moved k) := by
    rw [List.flatMap_map, List.map_flatMap]
    exact List.flatMap_congr fun n _ => preorder_moved k [] n
  rw [treeUses, hvisits, treeUses]
  refine usesOf_relocated fun v hv => ⟨rfl, isPassedOn_map_moved k v.ancestors, fun m hm => ?_⟩
  exact h m (mem_nodesAll_trans (node_mem_nodesAll_of_mem_flatMap hv) hm)

theorem treeUses_congr {before after : List UInt8}
    (h : ∀ n ∈ nodesAll ns, n.bytes before = n.bytes after) :
    treeUses before ns = treeUses after ns := by
  have hmoved : ns.map (moved 0) = ns :=
    (List.map_congr_left fun n _ => moved_zero n).trans (List.map_id' ns)
  have huses : treeUses before (ns.map (moved 0)) = (treeUses after ns).map (movedUse 0) := by
    refine treeUses_moved fun n hn => ?_
    rw [moved_zero]
    exact h n hn
  rw [hmoved] at huses
  exact huses.trans (List.map_id' _)

end Trees

/-! ## Programs -/

theorem contribution_program {source : List UInt8} {v : Visit} (h : v.node.kind = "program") :
    contribution source v = {} := by
  simp [contribution, h, functionKinds, signatureKinds, classKinds, namedDeclarationKinds,
    markupKinds]

/-- **The uses of a program are those of its statements.** -/
theorem usesOf_program {source : List UInt8} {root : Node} (h : root.kind = "program") :
    usesOf valueNameKinds source (preorder [] root) = treeUses source root.namedChildren := by
  have hbelow : root.namedChildren.flatMap (preorder ([] ++ [root]))
      = (root.namedChildren.flatMap (preorder [])).map (Visit.below [root]) := by
    rw [List.map_flatMap]
    exact List.flatMap_congr fun n _ => preorder_append [root] [] n
  have hroot : usesOf valueNameKinds source [⟨root, []⟩] = [] := by
    have hkind : root.kind ∉ valueNameKinds := by rw [h]; decide
    simp only [usesOf, fronted, List.filterMap_cons, useOf?_eq_none hkind, List.filterMap_nil]
  have hmarked : markedBy source [⟨root, []⟩] = [] := by
    rw [markedBy, List.flatMap_singleton, markedSpans_eq, contribution_program h]
    rfl
  have hexport : root.kind ≠ "export_statement" := by rw [h]; decide
  rw [preorder_eq, hbelow, ← List.singleton_append, usesOf_append, hroot, List.nil_append]
  · refine (usesOf_relocated (k := 0) fun v _ => ⟨?_, ?_, ?_⟩).trans (List.map_id' _)
    · exact (moved_zero v.node).symm
    · exact isPassedOn_cons hexport v.ancestors
    · intro m _
      rw [moved_zero]
  · intro v _ hv
    rw [hmarked] at hv
    cases hv

/-! ## What a scope records -/

namespace Scope

/-- The uses of values that a scope has recorded, with their offsets. -/
def uses (s : Scope) : List (String × Nat) :=
  s.references.flatMap fun item => item.2.map (item.1, ·)

theorem map_valuesOf {α β : Type} [DecidableEq α] (key : α) (items : List (α × β)) :
    (valuesOf key items).map (key, ·) = items.filter (·.1 = key) := by
  rw [valuesOf, List.map_map]
  refine (List.map_congr_left fun item hitem => ?_).trans (List.map_id' _)
  have hkey : item.1 = key := of_decide_eq_true (List.mem_filter.mp hitem).2
  exact Prod.ext hkey.symm rfl

/-- Items sorted by some keys are the items with these keys. -/
theorem flatMap_filter_perm {α β : Type} [DecidableEq α] (items : List (α × β)) {keys : List α}
    (h : keys.Nodup) :
    (keys.flatMap fun key => items.filter (·.1 = key)).Perm (items.filter (·.1 ∈ keys)) := by
  induction keys with
  | nil => simp
  | cons key keys ih =>
    rw [List.nodup_cons] at h
    have hkey : (items.filter (·.1 ∈ key :: keys)).filter (·.1 = key)
        = items.filter (·.1 = key) := by
      rw [List.filter_filter]
      refine List.filter_congr fun item _ => ?_
      by_cases hitem : item.1 = key <;> simp [hitem]
    have hkeys : (items.filter (·.1 ∈ key :: keys)).filter (fun item => !decide (item.1 = key))
        = items.filter (·.1 ∈ keys) := by
      rw [List.filter_filter]
      refine List.filter_congr fun item _ => ?_
      by_cases hitem : item.1 = key
      · simp [hitem, h.1]
      · simp [hitem]
    have hsplit := List.filter_append_perm (fun item : α × β => decide (item.1 = key))
      (items.filter (·.1 ∈ key :: keys))
    rw [hkey, hkeys] at hsplit
    rw [List.flatMap_cons]
    exact ((ih h.2).append_left _).trans hsplit

end Scope

/-- **A scope records the uses of the visited nodes.** -/
theorem uses_scopeAfter_perm (source : List UInt8) (visits : List Visit) :
    (scopeAfter source visits).uses.Perm (usesOf valueNameKinds source visits) := by
  generalize huses : usesOf valueNameKinds source visits = uses
  have htable := Scope.flatMap_filter_tableOf Scope.offsetsOf uses (fun _ => true)
    fun item => item.2.map (item.1, ·)
  simp only [List.filter_true, Scope.flatMap_offsetsOf, Scope.map_valuesOf] at htable
  rw [Scope.uses, references_scopeAfter, huses, htable]
  have hall : uses.filter (·.1 ∈ (uses.map (·.1)).eraseDups) = uses := by
    refine List.filter_eq_self.mpr fun item hitem => decide_eq_true ?_
    exact List.mem_eraseDups.mpr (List.mem_map_of_mem hitem)
  have hperm := Scope.flatMap_filter_perm uses (Scope.nodup_eraseDups (uses.map (·.1)))
  rwa [hall] at hperm

/-- **The scope of a program records the uses of its statements.** -/
theorem uses_scopeOf_program (source : List UInt8) {root : Node} (h : root.kind = "program") :
    (scopeOf source root).uses.Perm (treeUses source root.namedChildren) := by
  rw [scopeOf_eq_scopeAfter, ← usesOf_program h]
  exact uses_scopeAfter_perm source (preorder [] root)

end PatchLint
