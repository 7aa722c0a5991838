import PatchLint.Proofs.Rules.Findings
import PatchLint.Proofs.Scope.StatementUses
import PatchLint.Proofs.Text.Boundaries

/-!
# Spans of findings

Every finding stands at a node of the tree, of a kind that its rule reports (`Rule.reportedKinds`).

Two rules take the span from the node they look at, and the span of an unused import has come through the
table of imports, where each binding is that of a whole statement. The end of a missing import is no end of
a node: it is counted from the decoded name. That it falls on the end of the node after all takes that the
node holds whole characters (`Node.FitsIn`); then nothing is lost in decoding.

* `Node.FitsIn.encode_text`, `Node.FitsIn.stop_eq` — the text of a node has the bytes of the node
* `exists_statement_of_mem_unusedImports`, `exists_name_of_mem_missingImports` — where the findings in a
  scope come from
* `exists_node_of_mem_analyzeTree` — where all findings come from
* `Diagnostic.IsExact` — what the span of a finding says
-/

namespace PatchLint

open Node

/-! ## Nodes in a text -/

/-- Whether a node stands in a text, from one boundary of characters to another. -/
structure Node.FitsIn (t : Text) (n : Node) : Prop where
  ordered : n.start ≤ n.stop
  start : Utf8.IsBoundary t n.start
  stop : Utf8.IsBoundary t n.stop

instance (t : Text) (n : Node) : Decidable (n.FitsIn t) :=
  decidable_of_iff (n.start ≤ n.stop ∧ Utf8.IsBoundary t n.start ∧ Utf8.IsBoundary t n.stop)
    ⟨fun h => ⟨h.1, h.2.1, h.2.2⟩, fun h => ⟨h.ordered, h.start, h.stop⟩⟩

namespace Node.FitsIn

variable {t : Text} {n : Node}

/-- **The text of a node has the bytes of the node.** -/
theorem encode_text (h : n.FitsIn t) :
    Utf8.encode (n.text (Utf8.encode t)).toList = n.bytes (Utf8.encode t) := by
  obtain ⟨mid, hbytes, -⟩ := Utf8.exists_encode_between h.start h.stop h.ordered
  have hmid : n.bytes (Utf8.encode t) = Utf8.encode mid := hbytes
  rw [text, hmid, Utf8.decodeLossy_encode, String.toList_ofList]

/-- **The width of its text leads from the start of a node to its end.** -/
theorem stop_eq (h : n.FitsIn t) : n.start + nameWidth (n.text (Utf8.encode t)) = n.stop := by
  obtain ⟨mid, hbytes, hstop⟩ := Utf8.exists_encode_between h.start h.stop h.ordered
  rw [nameWidth, h.encode_text, bytes, hbytes, hstop]

end Node.FitsIn

/-! ## Findings and nodes -/

namespace Diagnostic

/-- Whether a finding has the span of a node. -/
def StandsAt (d : Diagnostic) (n : Node) : Prop := d.start = n.start ∧ d.stop = n.stop

instance (d : Diagnostic) (n : Node) : Decidable (d.StandsAt n) := inferInstanceAs (Decidable (_ ∧ _))

/-- The bytes of the source that a finding spans. -/
def bytes (source : List UInt8) (d : Diagnostic) : List UInt8 :=
  (source.drop d.start.toNat).take (d.stop - d.start).toNat

theorem StandsAt.bytes_eq {d : Diagnostic} {n : Node} (h : d.StandsAt n) (source : List UInt8) :
    d.bytes source = n.bytes source := by
  rw [bytes, Node.bytes, h.1, h.2, Int.toNat_natCast, Int.toNat_sub]

/-- Whether the span of a finding in a tree over a text is exact. -/
structure IsExact (t : Text) (root : Node) (d : Diagnostic) : Prop where
  nonneg : 0 ≤ d.start
  ordered : d.start ≤ d.stop
  within : d.stop ≤ (Utf8.encode t).length
  /-- The span is that of a node, of a kind that the rule reports. -/
  node : ∃ r : Rule, d.ruleId = r.code ∧ ∃ n ∈ root.nodes, n.kind ∈ r.reportedKinds ∧ d.StandsAt n
  /-- A finding about a missing import spans the bytes of the name in its message. -/
  name : d.ruleId = Rule.missingImport.code →
    ∃ name, d.message = "Missing import for '" ++ name ++ "'" ∧
      d.bytes (Utf8.encode t) = Utf8.encode name.toList

end Diagnostic

variable {c : RuleConfig} {source : List UInt8}

/-! ## Rules in the finished scope -/

/-- Only import statements import names. -/
theorem kind_of_mem_imported {v : Visit} {l : Node} (h : l ∈ (contribution source v).imported) :
    v.node.kind = "import_statement" := by
  by_contra hkind
  simp only [contribution, if_neg hkind, apply_ite Contribution.imported, ite_self,
    List.not_mem_nil] at h

/-- The binding of an imported name is that of a whole statement. -/
theorem exists_statement_of_mem_imports {visits : List Visit} {name : String} {binding : ImportBinding}
    (h : (name, binding) ∈ (scopeAfter source visits).imports) :
    ∃ v ∈ visits, v.node.kind = "import_statement" ∧ binding = importBinding source v.node := by
  rw [imports_scopeAfter, Scope.mem_tableOf] at h
  have hitem := Scope.mem_valuesOf.mp (List.mem_of_getLast? h.2)
  obtain ⟨v, hv, hitem⟩ := List.mem_flatMap.mp hitem
  obtain ⟨l, hl, heq⟩ := List.mem_map.mp hitem
  cases heq
  exact ⟨v, hv, kind_of_mem_imported hl, rfl⟩

theorem exists_statement_of_mem_unusedImports {visits : List Visit} {d : Diagnostic}
    (h : d ∈ unusedImports c (scopeAfter source visits)) :
    ∃ v ∈ visits, v.node.kind = "import_statement" ∧ d.StandsAt v.node := by
  obtain ⟨⟨name, binding⟩, hitem, rfl⟩ := List.mem_map.mp h
  obtain ⟨v, hv, hkind, rfl⟩ := exists_statement_of_mem_imports (List.mem_of_mem_filter hitem)
  exact ⟨v, hv, hkind, rfl, rfl⟩

theorem exists_name_of_mem_missingImports {visits : List Visit} {d : Diagnostic}
    (h : d ∈ missingImports c (scopeAfter source visits)) :
    ∃ v ∈ visits, v.node.kind ∈ valueNameKinds ∧
      d = c.diagnostic .missingImport ("Missing import for '" ++ v.node.text source ++ "'")
        v.node.start (v.node.start + nameWidth (v.node.text source)) := by
  obtain ⟨⟨name, offsets⟩, hitem, h⟩ := List.mem_flatMap.mp h
  obtain ⟨offset, hoffset, rfl⟩ := List.mem_map.mp h
  have huse : (name, offset) ∈ (scopeAfter source visits).uses :=
    List.mem_flatMap.mpr ⟨_, List.mem_of_mem_filter hitem, List.mem_map_of_mem hoffset⟩
  rw [(uses_scopeAfter_perm source visits).mem_iff] at huse
  obtain ⟨v, hv, hkind, heq⟩ := exists_name_of_mem_usesOf huse
  cases heq
  exact ⟨v, hv, hkind, rfl⟩

/-! ## All findings -/

section Trees

variable {t : Text} {root : Node}

/-- A finding about a missing import stands at the name it reports. -/
theorem exists_name_of_missingImport (hfits : ∀ n ∈ root.nodes, n.FitsIn t) {d : Diagnostic}
    (hd : d ∈ analyzeTree c (Utf8.encode t) root) (hcode : d.ruleId = Rule.missingImport.code) :
    ∃ n ∈ root.nodes, n.kind ∈ Rule.missingImport.reportedKinds ∧ d.StandsAt n ∧
      d.message = "Missing import for '" ++ n.text (Utf8.encode t) ++ "'" := by
  have hmem := mem_missingImports_of_code c _ hd hcode
  rw [scopeOf_eq_scopeAfter] at hmem
  obtain ⟨v, hv, hkind, rfl⟩ := exists_name_of_mem_missingImports hmem
  have hnode := node_mem_nodes_of_mem_preorder hv
  refine ⟨v.node, hnode, hkind, ⟨rfl, ?_⟩, rfl⟩
  rw [(hfits v.node hnode).stop_eq]
  rfl

/-- **Every finding stands at a node of a kind that its rule reports.** -/
theorem exists_node_of_mem_analyzeTree (hfits : ∀ n ∈ root.nodes, n.FitsIn t) {d : Diagnostic}
    (hd : d ∈ analyzeTree c (Utf8.encode t) root) :
    ∃ r : Rule, d.ruleId = r.code ∧ ∃ n ∈ root.nodes, n.kind ∈ r.reportedKinds ∧ d.StandsAt n := by
  obtain ⟨r, hcode, ⟨item, hitem, h⟩ | h⟩ := exists_rule_of_mem_analyzeTree c _ hd
  · have hnode := node_mem_nodes_of_mem_preorder (mem_of_mem_fronted hitem)
    obtain ⟨hkind, message, rfl⟩ := eq_diagnostic_of_mem_visit c _ h
    exact ⟨r, hcode, item.2.node, hnode, hkind, rfl, rfl⟩
  refine ⟨r, hcode, ?_⟩
  cases r with
  | unusedImport =>
    obtain ⟨v, hv, hkind, hstands⟩ := exists_statement_of_mem_unusedImports h
    exact ⟨v.node, node_mem_nodes_of_mem_preorder hv, List.mem_singleton.mpr hkind, hstands⟩
  | missingImport =>
    obtain ⟨n, hn, hkind, hstands, -⟩ := exists_name_of_missingImport hfits hd hcode
    exact ⟨n, hn, hkind, hstands⟩
  | nullAccess | missingAwait => cases h

/-- **The spans of findings are exact,** in a tree whose nodes start and end between characters of a
text. -/
theorem isExact_of_mem_analyzeTree (c : RuleConfig) (hfits : ∀ n ∈ root.nodes, n.FitsIn t)
    {d : Diagnostic} (hd : d ∈ analyzeTree c (Utf8.encode t) root) : d.IsExact t root := by
  obtain ⟨r, hcode, n, hn, hkind, hstands⟩ := exists_node_of_mem_analyzeTree hfits hd
  obtain ⟨hstart, hstop⟩ := hstands
  have hordered := (hfits n hn).ordered
  have hlength := Utf8.le_length_of_isBoundary (hfits n hn).stop
  refine ⟨by omega, by omega, by omega, ⟨r, hcode, n, hn, hkind, hstart, hstop⟩, fun hmissing => ?_⟩
  obtain ⟨name, hname, -, hspan, hmessage⟩ := exists_name_of_missingImport hfits hd hmissing
  refine ⟨_, hmessage, ?_⟩
  rw [hspan.bytes_eq, (hfits name hname).encode_text]

end Trees

/-- A text with characters of several bytes in which every rule finds something. -/
def wideText : Text := "import ä from 'm'; async () => ö.then(ü)".toList

/-- The tree of this text. -/
def wideTree : Node :=
  let token (kind : String) (start stop : Nat) : Node :=
    .mk ⟨kind, start, stop, false, false, false, []⟩ []
  let node (kind : String) (start stop : Nat) (fields : List String) (children : List Node) : Node :=
    .mk ⟨kind, start, stop, true, false, false, fields⟩ children
  node "program" 0 43 []
    [node "import_statement" 0 19 []
      [token "import" 0 6,
       node "import_clause" 7 9 [] [node "identifier" 7 9 [] []],
       token "from" 10 14,
       node "string" 15 18 ["source"] []],
     node "expression_statement" 20 43 []
      [node "arrow_function" 20 43 []
        [token "async" 20 25,
         node "formal_parameters" 26 28 ["parameters"] [],
         node "call_expression" 32 43 ["body"]
          [node "member_expression" 32 39 ["function"]
            [node "identifier" 32 34 ["object"] [], token "." 34 35,
             node "property_identifier" 35 39 ["property"] []],
           node "arguments" 39 43 ["arguments"] [node "identifier" 40 42 [] []]]]]]

/-- The names in this text are two bytes wide, and so are the spans of the findings about them. -/
theorem isExact_of_mem_analyzeTree_wide :
    (∀ n ∈ wideTree.nodes, n.FitsIn wideText) ∧
      ((analyzeTree {} (Utf8.encode wideText) wideTree).map fun d => (d.ruleId, d.start, d.stop))
        = [("R4", 32, 43), ("R3", 32, 39), ("R1", 0, 19), ("R2", 32, 34), ("R2", 40, 42)] ∧
      ∀ d ∈ analyzeTree {} (Utf8.encode wideText) wideTree, d.IsExact wideText wideTree := by
  have hfits : ∀ n ∈ wideTree.nodes, n.FitsIn wideText := by decide +kernel
  refine ⟨hfits, by decide +kernel, fun d hd => ?_⟩
  exact isExact_of_mem_analyzeTree {} hfits hd

/-! ## Names in objects -/

/-- A text in which a name stands for a member of an object and for its value at once. -/
def shorthandText : Text := "(\x7bfoo\x7d);".toList

/-- The tree of this text. -/
def shorthandTree : Node :=
  let token (kind : String) (start stop : Nat) : Node :=
    .mk ⟨kind, start, stop, false, false, false, []⟩ []
  let node (kind : String) (start stop : Nat) (children : List Node) : Node :=
    .mk ⟨kind, start, stop, true, false, false, []⟩ children
  node "program" 0 8
    [node "expression_statement" 0 8
      [node "parenthesized_expression" 0 7
        [token "(" 0 1,
         node "object" 1 6
          [token "\x7b" 1 2, node "shorthand_property_identifier" 2 5 [], token "\x7d" 5 6],
         token ")" 6 7],
       token ";" 7 8]]

/-- A missing import is not always that of an identifier: the name of a member that stands for its value
is a use as well, and it is a node of a kind of its own. -/
theorem exists_missingImport_shorthand :
    (∀ n ∈ shorthandTree.nodes, n.FitsIn shorthandText) ∧
      ∃ d ∈ analyzeTree {} (Utf8.encode shorthandText) shorthandTree,
        d.ruleId = Rule.missingImport.code ∧
          ∀ n ∈ shorthandTree.nodes, n.kind = "identifier" → ¬d.StandsAt n := by
  decide +kernel

end PatchLint
