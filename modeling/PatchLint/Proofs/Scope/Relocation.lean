import PatchLint.Proofs.Scope.Contribution
import PatchLint.Proofs.Tree.Moved

/-!
# The contribution of a moved node

A node contributes nodes that stand below it, and a moved node contributes the moved nodes. Only the
name of a markup element is read for this, as its capital decides whether it stands for a component.

* `contribution_within` — what a node contributes stands below it
* `contribution_moved` — a moved node contributes what the node contributes, moved
* `isPassedOn_cons` — only an export decides whether names are passed on
-/

namespace PatchLint

open Node

/-- All nodes that a contribution names: they are no references. -/
def Contribution.named (c : Contribution) : List Node := c.passive ++ c.imported ++ c.bound

theorem markedSpans_eq (source : List UInt8) (v : Visit) :
    markedSpans source v = (contribution source v).named.map (·.span) := rfl

/-! ## What a node contributes stands below it -/

section Below

variable {n m : Node} {name : String}

theorem mem_nodes_of_mem_field? (h : m ∈ (n.field? name).toList) : m ∈ n.nodes :=
  mem_nodes_of_field? (Option.mem_toList.mp h) (self_mem_nodes m)

theorem mem_nodes_of_mem_identifiers (h : m ∈ identifiers n) : m ∈ n.nodes :=
  mem_nodes_of_mem_namedChildren (List.mem_of_mem_filter h) (self_mem_nodes m)

theorem mem_children_of_mem_patternParts (h : m ∈ patternParts n) : m ∈ n.children := by
  have hfield {name : String} (hm : m ∈ (n.field? name).toList) : m ∈ n.children :=
    mem_children_of_field? (Option.mem_toList.mp hm)
  unfold patternParts at h
  split at h
  · exact mem_children_of_mem_namedChildren h
  split at h
  · exact hfield h
  split at h
  · exact hfield h
  split at h
  · exact hfield h
  · cases h

theorem mem_nodes_of_mem_patternNames (h : m ∈ patternNames n) : m ∈ n.nodes := by
  induction n using children_induction with
  | step n ih =>
    by_cases hn : isBoundName n = true
    · rw [patternNames_of_isBoundName hn, List.mem_singleton] at h
      rw [h]
      exact self_mem_nodes n
    · rw [patternNames_of_not_isBoundName hn, List.mem_flatMap] at h
      obtain ⟨c, hc, hm⟩ := h
      have hc := mem_children_of_mem_patternParts hc
      exact mem_nodes_of_mem_children hc (ih c hc hm)

theorem mem_nodes_of_mem_fieldPatternNames (h : m ∈ fieldPatternNames n name) : m ∈ n.nodes := by
  obtain ⟨c, hc, hm⟩ := List.mem_flatMap.mp h
  exact mem_nodes_of_field? (Option.mem_toList.mp hc) (mem_nodes_of_mem_patternNames hm)

theorem mem_nodes_of_mem_functionNames (h : m ∈ functionNames n) : m ∈ n.nodes := by
  rw [functionNames, List.mem_append, List.mem_append] at h
  rcases h with (h | h) | h
  · exact mem_nodes_of_mem_field? (List.mem_of_mem_filter h)
  · exact mem_nodes_of_mem_fieldPatternNames h
  · obtain ⟨params, hparams, h⟩ := List.mem_flatMap.mp h
    obtain ⟨p, hp, hm⟩ := List.mem_flatMap.mp h
    exact mem_nodes_of_field? (Option.mem_toList.mp hparams)
      (mem_nodes_of_mem_namedChildren hp (mem_nodes_of_mem_patternNames hm))

theorem mem_children_of_dottedHead? (h : dottedHead? n = some m) : m ∈ n.children := by
  unfold dottedHead? at h
  split at h
  · next hfield =>
    cases h
    exact mem_children_of_field? hfield
  · exact mem_children_of_mem_namedChildren (List.mem_of_mem_head? h)

theorem mem_nodes_of_boundHead? (h : boundHead? n = some m) : m ∈ n.nodes := by
  induction n using children_induction with
  | step n ih =>
    rw [boundHead?] at h
    split at h
    · split at h
      · cases h
      · next head hhead =>
        have hhead := mem_children_of_dottedHead? hhead
        exact mem_nodes_of_mem_children hhead (ih head hhead h)
    · cases h
      exact self_mem_nodes m

theorem mem_nodes_of_mem_declarationName (h : m ∈ declarationName n) : m ∈ n.nodes := by
  obtain ⟨c, hc, hm⟩ :=
    Option.bind_eq_some_iff.mp (Option.mem_toList.mp (List.mem_of_mem_filter h))
  exact mem_nodes_of_field? hc (mem_nodes_of_boundHead? hm)

theorem mem_nodes_of_specifierLocal? (h : specifierLocal? n = some m) : m ∈ n.nodes := by
  unfold specifierLocal? at h
  split at h
  · next halias =>
    cases h
    exact mem_nodes_of_field? halias (self_mem_nodes _)
  · exact mem_nodes_of_field? h (self_mem_nodes m)

theorem mem_nodes_of_mem_clausePartLocals (h : m ∈ clausePartLocals n) : m ∈ n.nodes := by
  unfold clausePartLocals at h
  split at h
  · rw [List.mem_singleton.mp h]
    exact self_mem_nodes n
  split at h
  · exact mem_nodes_of_mem_identifiers h
  split at h
  · obtain ⟨spec, hspec, hm⟩ := List.mem_filterMap.mp (List.mem_of_mem_filter h)
    exact mem_nodes_of_mem_namedChildren (List.mem_of_mem_filter hspec)
      (mem_nodes_of_specifierLocal? hm)
  · cases h

theorem mem_nodes_of_mem_importLocals (h : m ∈ importLocals n) : m ∈ n.nodes := by
  obtain ⟨clause, hclause, h⟩ := List.mem_flatMap.mp h
  refine mem_nodes_of_mem_namedChildren hclause ?_
  split at h
  · exact mem_nodes_of_mem_identifiers h
  split at h
  · obtain ⟨part, hpart, hm⟩ := List.mem_flatMap.mp h
    exact mem_nodes_of_mem_namedChildren hpart (mem_nodes_of_mem_clausePartLocals hm)
  · cases h

theorem mem_nodes_of_mem_importedNames (h : m ∈ importedNames n) : m ∈ n.nodes := by
  obtain ⟨clause, hclause, h⟩ := List.mem_flatMap.mp h
  obtain ⟨part, hpart, h⟩ := List.mem_flatMap.mp h
  obtain ⟨spec, hspec, hm⟩ := List.mem_filterMap.mp h
  exact mem_nodes_of_mem_namedChildren (List.mem_of_mem_filter hclause)
    (mem_nodes_of_mem_namedChildren (List.mem_of_mem_filter hpart)
      (mem_nodes_of_mem_namedChildren (List.mem_of_mem_filter hspec)
        (mem_nodes_of_field? hm (self_mem_nodes m))))

end Below

/-- Whether all nodes of a contribution stand below a node. -/
def Contribution.Within (n : Node) (c : Contribution) : Prop := ∀ m ∈ c.named, m ∈ n.nodes

namespace Contribution

variable {n : Node}

theorem within_nil : Within n {} := fun _ hm => absurd hm List.not_mem_nil

theorem within_bound {names : List Node} (h : ∀ m ∈ names, m ∈ n.nodes) :
    Within n { bound := names } := h

theorem within_import {names locals : List Node} (hnames : ∀ m ∈ names, m ∈ n.nodes)
    (hlocals : ∀ m ∈ locals, m ∈ n.nodes) :
    Within n { passive := names, imported := locals } := by
  intro m hm
  rw [named, List.append_nil, List.mem_append] at hm
  exact hm.elim (hnames m) (hlocals m)

theorem within_passive {names : List Node} (h : ∀ m ∈ names, m ∈ n.nodes) :
    Within n { passive := names } :=
  within_import h fun _ hm => absurd hm List.not_mem_nil

theorem within_ite {p : Prop} [Decidable p] {c d : Contribution} (hc : Within n c)
    (hd : Within n d) : Within n (if p then c else d) := by
  split
  · exact hc
  · exact hd

end Contribution

open Contribution in
/-- **What a node contributes stands below it.** -/
theorem contribution_within (source : List UInt8) (v : Visit) :
    (contribution source v).Within v.node := by
  have hfield (name : String) : ∀ m ∈ (v.node.field? name).toList, m ∈ v.node.nodes :=
    fun _ => mem_nodes_of_mem_field?
  have hpattern (name : String) : ∀ m ∈ fieldPatternNames v.node name, m ∈ v.node.nodes :=
    fun _ => mem_nodes_of_mem_fieldPatternNames
  -- the kinds in the order in which they are asked for
  refine within_ite ?statement <| within_ite (within_bound (hpattern "name")) <|
    within_ite ?function <| within_ite ?declaration <|
    within_ite (within_bound (hpattern "parameter")) <|
    within_ite (within_ite (within_bound (hpattern "left")) within_nil) <|
    within_ite (within_passive (hfield "name")) <| within_ite ?specifier <| within_ite ?space <|
    within_ite ?markup <| within_ite (within_passive (hfield "name")) within_nil
  case statement =>
    exact within_import (fun _ => mem_nodes_of_mem_importedNames)
      fun _ => mem_nodes_of_mem_importLocals
  case function => exact within_bound fun _ => mem_nodes_of_mem_functionNames
  case declaration => exact within_bound fun _ => mem_nodes_of_mem_declarationName
  case specifier =>
    refine within_passive fun m hm => ?_
    rcases List.mem_append.mp hm with hm | hm
    · exact hfield "alias" m hm
    · split at hm
      · exact hfield "name" m hm
      · cases hm
  case space =>
    exact within_passive fun m hm => mem_nodes_of_mem_namedChildren hm (self_mem_nodes m)
  case markup =>
    exact within_passive fun m hm => hfield "name" m (List.mem_of_mem_filter hm)

/-! ## A moved node contributes moved nodes -/

/-- A contribution with all offsets moved by some bytes. -/
def Contribution.moved (k : Nat) (c : Contribution) : Contribution where
  passive := c.passive.map (Node.moved k)
  imported := c.imported.map (Node.moved k)
  bound := c.bound.map (Node.moved k)

theorem Contribution.named_moved (k : Nat) (c : Contribution) :
    (c.moved k).named = c.named.map (Node.moved k) := by
  simp only [named, moved, List.map_append]

section Moved

variable (k : Nat) (n : Node)

theorem identifiers_moved : identifiers (n.moved k) = (identifiers n).map (moved k) := by
  simp only [identifiers, namedChildren_moved, List.filter_map, Function.comp_def, kind_moved]

theorem importSpecifiers_moved :
    importSpecifiers (n.moved k) = (importSpecifiers n).map (moved k) := by
  simp only [importSpecifiers, namedChildren_moved, List.filter_map, Function.comp_def, kind_moved]

theorem specifierLocal?_moved :
    specifierLocal? (n.moved k) = (specifierLocal? n).map (moved k) := by
  rw [specifierLocal?, specifierLocal?, field?_moved, field?_moved]
  cases n.field? "alias" with
  | none => rfl
  | some other => rfl

theorem clausePartLocals_moved :
    clausePartLocals (n.moved k) = (clausePartLocals n).map (moved k) := by
  simp only [clausePartLocals, kind_moved, identifiers_moved, importSpecifiers_moved,
    List.filterMap_map, Function.comp_def, specifierLocal?_moved, apply_ite (List.map (moved k)),
    List.map_cons, List.map_nil, ← List.map_filterMap, List.filter_map]

theorem importLocals_moved : importLocals (n.moved k) = (importLocals n).map (moved k) := by
  simp only [importLocals, namedChildren_moved, List.flatMap_map, List.map_flatMap, kind_moved,
    identifiers_moved, clausePartLocals_moved, apply_ite (List.map (moved k)), List.map_nil]

theorem importedNames_moved : importedNames (n.moved k) = (importedNames n).map (moved k) := by
  simp only [importedNames, namedChildren_moved, List.filter_map, Function.comp_def, kind_moved,
    List.flatMap_map, List.map_flatMap, importSpecifiers_moved, List.filterMap_map, field?_moved,
    List.map_filterMap]

theorem patternParts_moved : patternParts (n.moved k) = (patternParts n).map (moved k) := by
  simp only [patternParts, kind_moved, namedChildren_moved, field?_moved, Option.toList_map,
    apply_ite (List.map (moved k)), List.map_nil]

theorem patternNames_moved : patternNames (n.moved k) = (patternNames n).map (moved k) := by
  induction n using children_induction with
  | step n ih =>
    have hkind : isBoundName (n.moved k) = isBoundName n := by rw [isBoundName, kind_moved]; rfl
    by_cases hn : isBoundName n = true
    · rw [patternNames_of_isBoundName hn, patternNames_of_isBoundName (hkind.trans hn)]
      rfl
    · have hn' : ¬isBoundName (n.moved k) = true := by rwa [hkind]
      rw [patternNames_of_not_isBoundName hn, patternNames_of_not_isBoundName hn',
        patternParts_moved, List.flatMap_map, List.map_flatMap]
      exact List.flatMap_congr fun c hc => ih c (mem_children_of_mem_patternParts hc)

theorem fieldPatternNames_moved (name : String) :
    fieldPatternNames (n.moved k) name = (fieldPatternNames n name).map (moved k) := by
  simp only [fieldPatternNames, field?_moved, Option.toList_map, List.flatMap_map,
    List.map_flatMap, patternNames_moved]

theorem functionNames_moved : functionNames (n.moved k) = (functionNames n).map (moved k) := by
  simp only [functionNames, field?_moved, Option.toList_map, List.filter_map, Function.comp_def,
    kind_moved, fieldPatternNames_moved, List.map_append, List.flatMap_map, List.map_flatMap,
    namedChildren_moved, patternNames_moved]

theorem dottedHead?_moved : dottedHead? (n.moved k) = (dottedHead? n).map (moved k) := by
  rw [dottedHead?, dottedHead?, field?_moved, namedChildren_moved]
  cases n.field? "object" with
  | none => rw [List.head?_map]; rfl
  | some object => rfl

theorem boundHead?_moved : boundHead? (n.moved k) = (boundHead? n).map (moved k) := by
  induction n using children_induction with
  | step n ih =>
    rw [boundHead?, boundHead?, kind_moved, dottedHead?_moved]
    split
    · cases hhead : dottedHead? n with
      | none => rfl
      | some head => exact ih head (mem_children_of_dottedHead? hhead)
    · rfl

theorem declarationName_moved :
    declarationName (n.moved k) = (declarationName n).map (moved k) := by
  rw [declarationName, declarationName, field?_moved]
  cases n.field? "name" with
  | none => rfl
  | some name =>
    simp only [Option.map_some, Option.bind_some, boundHead?_moved, Option.toList_map,
      List.filter_map, Function.comp_def, kind_moved]

end Moved

/-! ## Above a node -/

/-- Only an export decides whether names are passed on. -/
theorem isPassedOn_cons {top : Node} (h : top.kind ≠ "export_statement") (path : List Node) :
    isPassedOn (top :: path) = isPassedOn path := by
  have hfind : (top :: path).reverse.find? (·.kind == "export_statement")
      = path.reverse.find? (·.kind == "export_statement") := by
    rw [List.reverse_cons, List.find?_append, List.find?_cons_of_neg (by simpa using h),
      List.find?_nil, Option.or_none]
  rw [isPassedOn, hfind]
  rfl

theorem isPassedOn_map_moved (k : Nat) (path : List Node) :
    isPassedOn (path.map (Node.moved k)) = isPassedOn path := by
  have hfind : (path.map (Node.moved k)).reverse.find? (·.kind == "export_statement")
      = (path.reverse.find? (·.kind == "export_statement")).map (Node.moved k) := by
    rw [← List.map_reverse, List.find?_map]
    simp only [Function.comp_def, kind_moved]
  rw [isPassedOn, isPassedOn, hfind]
  cases path.reverse.find? (·.kind == "export_statement") with
  | none => rfl
  | some statement =>
    show ((statement.moved k).field? "source").isSome = _
    rw [field?_moved, Option.isSome_map]

/-! ## The contribution -/

/-- Whether a name of a markup element stands for itself is told by its kind and its text. -/
theorem isPlainTag_congr {before after : List UInt8} {n m : Node} (hkind : n.kind = m.kind)
    (htext : n.text before = m.text after) : isPlainTag before n = isPlainTag after m := by
  rw [isPlainTag, hkind, htext, isPlainTag]

/-- **A moved node contributes what the node contributes, moved,** if its name is read the same. -/
theorem contribution_moved {k : Nat} {before after : List UInt8} {v w : Visit}
    (hnode : w.node = v.node.moved k) (hpath : isPassedOn w.ancestors = isPassedOn v.ancestors)
    (htext : ∀ name ∈ v.node.field? "name", (name.moved k).text before = name.text after) :
    contribution before w = (contribution after v).moved k := by
  have htags : ((v.node.field? "name").toList.map (Node.moved k)).filter (isPlainTag before)
      = ((v.node.field? "name").toList.filter (isPlainTag after)).map (Node.moved k) := by
    rw [List.filter_map]
    congr 1
    refine List.filter_congr fun name hname => ?_
    exact isPlainTag_congr (kind_moved k name) (htext name (Option.mem_toList.mp hname))
  simp only [contribution, hnode, kind_moved, importedNames_moved, importLocals_moved,
    fieldPatternNames_moved, functionNames_moved, declarationName_moved, field?_moved,
    Option.isSome_map, Option.toList_map, hpath, namedChildren_moved, htags,
    apply_ite (Contribution.moved k)]
  simp only [Contribution.moved, List.map_nil, List.map_append, apply_ite (List.map (Node.moved k))]

end PatchLint
