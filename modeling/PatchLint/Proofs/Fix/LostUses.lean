import Mathlib.Algebra.Order.Group.Multiset
import PatchLint.Proofs.Fix.KeptRun
import PatchLint.Proofs.Fix.LineOffsets
import PatchLint.Proofs.Rules.Findings
import PatchLint.Proofs.Scope.StatementUses

/-!
# Uses that go with an import

A fix deletes the line on which an unused import starts, the whole line and only this line. A use that
shares the line goes with it, and a deleted line can also change how the rest of the text is read
(`valueNames_fixAll_ne`).

If the rest is read as before, the line is all that is lost (`valueNames_fixAll`): the uses of the
source are those of the result and those on the deleted lines.

* `LineCut` — a tree without the statements on a line
* `LineCut.treeUses_before`, `LineCut.treeUses_after` — the uses of two such trees
* `KeptFix.valueNames_perm` — what one fix does to the uses
* `KeptRun.valueNames_eq` — what a run does to them
-/

namespace PatchLint

open Node

/-! ## Trees without a line -/

/-- How a tree is cut: `after` is `before` without a line that starts at the offset `first` and is
followed by a line at `next`. Of the statements of the program those on the line are missing, those in
front of it are the same, and those behind it have moved up. -/
structure LineCut (first next : Nat) (before after : Node) where
  front : List Node
  cut : List Node
  rest : List Node
  program_before : before.kind = "program"
  program_after : after.kind = "program"
  before_eq : before.namedChildren = front ++ cut ++ rest.map (moved (next - first))
  after_eq : after.namedChildren = front ++ rest
  in_front : ∀ n ∈ nodesAll front, n.start < first ∧ n.stop < first
  in_cut : ∀ n ∈ nodesAll cut, first ≤ n.start ∧ n.start < next
  in_rest : ∀ n ∈ nodesAll rest, first ≤ n.start

theorem span_ne_of_start_lt {n m : Node} (h : n.start < m.start) : n.span ≠ m.span := by
  intro hspan
  exact Nat.ne_of_lt h (congrArg Prod.fst hspan)

namespace LineCut

variable {first next : Nat} {root root' : Node} (t : LineCut first next root root')

theorem start_lt_of_mem_front_cut {n : Node} (hn : n ∈ nodesAll (t.front ++ t.cut))
    (hle : first ≤ next) : n.start < next := by
  rw [nodesAll_append, List.mem_append] at hn
  rcases hn with hn | hn
  · exact Nat.lt_of_lt_of_le (t.in_front n hn).1 hle
  · exact (t.in_cut n hn).2

theorem le_start_of_mem_moved {n : Node}
    (hn : n ∈ nodesAll (t.rest.map (moved (next - first)))) : next ≤ n.start := by
  rw [nodesAll_map_moved] at hn
  obtain ⟨m, hm, rfl⟩ := List.mem_map.mp hn
  have hstart := t.in_rest m hm
  rw [start_moved]
  omega

/-- **The uses of the tree,** if the bytes in front of the line and behind it are those of the tree
without it. -/
theorem treeUses_before {before after : List UInt8} (hle : first ≤ next)
    (hfront : ∀ offset < first, before.take offset = after.take offset)
    (hrest : ∀ offset, first ≤ offset →
      before.drop (offset + (next - first)) = after.drop offset) :
    treeUses before root.namedChildren
      = treeUses after t.front ++ treeUses before t.cut
        ++ (treeUses after t.rest).map (movedUse (next - first)) := by
  have hsame : treeUses before t.front = treeUses after t.front :=
    treeUses_congr fun n hn => bytes_congr (hfront n.stop (t.in_front n hn).2)
  have hmoved : treeUses before (t.rest.map (moved (next - first)))
      = (treeUses after t.rest).map (movedUse (next - first)) :=
    treeUses_moved fun n hn => bytes_moved (hrest n.start (t.in_rest n hn))
  rw [t.before_eq, treeUses_append, treeUses_append, hsame, hmoved]
  · intro n hn m hm
    exact span_ne_of_start_lt (Nat.lt_of_lt_of_le (t.in_front n hn).1 (t.in_cut m hm).1)
  · intro n hn m hm
    exact span_ne_of_start_lt
      (Nat.lt_of_lt_of_le (t.start_lt_of_mem_front_cut hn hle) (t.le_start_of_mem_moved hm))

/-- **The uses of the tree without the line.** -/
theorem treeUses_after (after : List UInt8) :
    treeUses after root'.namedChildren = treeUses after t.front ++ treeUses after t.rest := by
  rw [t.after_eq, treeUses_append]
  intro n hn m hm
  exact span_ne_of_start_lt (Nat.lt_of_lt_of_le (t.in_front n hn).1 (t.in_rest m hm))

section Offsets

variable {source : List UInt8} {use : String × Nat}

theorem offset_lt_of_mem_front (h : use ∈ treeUses source t.front) : use.2 < first := by
  obtain ⟨n, hn, hstart⟩ := exists_node_of_mem_treeUses h
  rw [← hstart]
  exact (t.in_front n hn).1

theorem offset_mem_of_mem_cut (h : use ∈ treeUses source t.cut) :
    first ≤ use.2 ∧ use.2 < next := by
  obtain ⟨n, hn, hstart⟩ := exists_node_of_mem_treeUses h
  rw [← hstart]
  exact t.in_cut n hn

theorem le_offset_of_mem_moved
    (h : use ∈ (treeUses source t.rest).map (movedUse (next - first))) : next ≤ use.2 := by
  obtain ⟨old, hold, rfl⟩ := List.mem_map.mp h
  obtain ⟨n, hn, hstart⟩ := exists_node_of_mem_treeUses hold
  have hle := t.in_rest n hn
  show next ≤ old.2 + (next - first)
  omega

end Offsets

end LineCut

/-! ## Uses in sources -/

section Sources

variable (parser : Parser) (language : Language)

/-- The uses of values in a source, with their offsets. A source that cannot be parsed has none. -/
def valueUses (source : Text) : List (String × Nat) :=
  match parse parser language source with
  | .error _ => []
  | .ok root => (scopeOf (Utf8.encode source) root).uses

/-- The names that are used as values in a source, each as often as it is used. -/
def valueNames (source : Text) : Multiset String :=
  ((valueUses parser language source).map (·.1) : List String)

/-- The names that are used as values on the line on which the finding of a fix starts. -/
def Attempt.lostNames (a : Attempt) : List String :=
  let lines := Text.pieces '\n' a.before
  ((valueUses parser language a.before).filter fun use =>
    lineIndex? lines use.2 = lineIndex? lines a.target.start).map (·.1)

/-- Whether a fix deletes the line on which an import starts that binds a name without a use. -/
def Attempt.DeletesUnusedImport (a : Attempt) : Prop :=
  ∃ root name binding index after, parse parser language a.before = .ok root ∧
    (name, binding) ∈ (scopeOf (Utf8.encode a.before) root).imports ∧
    name ∉ (scopeOf (Utf8.encode a.before) root).used ∧
    name ∉ (scopeOf (Utf8.encode a.before) root).typeReferences ∧
    lineIndex? (Text.pieces '\n' a.before) binding.start = some index ∧
    a.after = some after ∧ DeletesLine index a.before after

/-- Whether the text after a fix is read as the text before it without the deleted line. -/
def Attempt.ReadsOtherLines (a : Attempt) : Prop :=
  let lines := Text.pieces '\n' a.before
  ∃ index after root root', lineIndex? lines a.target.start = some index ∧
    a.after = some after ∧ parse parser language a.before = .ok root ∧
    parse parser language after = .ok root' ∧
    Nonempty (LineCut (lineStart lines index) (lineStart lines (index + 1)) root root')

end Sources

variable {parser : Parser} {c : RuleConfig} {language : Language}

/-! ## What a fix deletes -/

namespace KeptFix

variable {d next : Draft} {a : Attempt}

/-- **A fix deletes the line of an unused import.** -/
theorem deletesUnusedImport (h : KeptFix parser c language d a next)
    (hd : d = Draft.ofSource parser c language d.text) : a.DeletesUnusedImport parser language := by
  obtain ⟨index, hindex, hdelete⟩ := h.deletesLine
  have htarget := h.target
  have hmem := List.mem_of_find?_eq_some htarget
  have hcode : a.target.ruleId = Rule.unusedImport.code := by
    have hfound := List.find?_some htarget
    rw [Bool.and_eq_true, beq_iff_eq] at hfound
    exact hfound.1
  rw [hd] at hmem
  change a.target ∈ analyze parser c language d.text at hmem
  rw [analyze] at hmem
  cases hparse : parse parser language d.text with
  | error fault =>
    rw [hparse] at hmem
    cases hmem
  | ok root =>
    rw [hparse] at hmem
    obtain ⟨name, binding, himport, hused, htype, hstart⟩ :=
      exists_import_of_mem_analyzeTree c (Utf8.encode d.text) hmem hcode
    rw [hstart] at hindex
    rw [← h.before_eq] at hparse himport hused htype hindex hdelete
    exact ⟨root, name, binding, index, next.text, hparse, himport, hused, htype, hindex, h.after,
      hdelete⟩

end KeptFix

/-- The uses on a line are those between its ends. -/
theorem filter_onLine {lines : List Text} {index : Nat} (hindex : index < lines.length)
    {front cut rest : List (String × Nat)}
    (hfront : ∀ use ∈ front, use.2 < lineStart lines index)
    (hcut : ∀ use ∈ cut, lineStart lines index ≤ use.2 ∧ use.2 < lineStart lines (index + 1))
    (hrest : ∀ use ∈ rest, lineStart lines (index + 1) ≤ use.2) :
    (front ++ cut ++ rest).filter (fun use => lineIndex? lines use.2 = some index) = cut := by
  have honLine (use : String × Nat) : lineIndex? lines use.2 = some index ↔
      lineStart lines index ≤ use.2 ∧ use.2 < lineStart lines (index + 1) := by
    rw [lineIndex?_eq_some_iff]
    exact and_iff_right hindex
  have hfront' : front.filter (fun use => lineIndex? lines use.2 = some index) = [] := by
    refine List.filter_eq_nil_iff.mpr fun use huse hon => ?_
    exact Nat.not_lt.mpr ((honLine use).mp (of_decide_eq_true hon)).1 (hfront use huse)
  have hcut' : cut.filter (fun use => lineIndex? lines use.2 = some index) = cut :=
    List.filter_eq_self.mpr fun use huse => decide_eq_true ((honLine use).mpr (hcut use huse))
  have hrest' : rest.filter (fun use => lineIndex? lines use.2 = some index) = [] := by
    refine List.filter_eq_nil_iff.mpr fun use huse hon => ?_
    exact Nat.not_lt.mpr (hrest use huse) ((honLine use).mp (of_decide_eq_true hon)).2
  rw [List.filter_append, List.filter_append, hfront', hcut', hrest', List.append_nil,
    List.nil_append]

namespace KeptFix

variable {d next : Draft} {a : Attempt}

/-- **A fix loses the uses on its line,** if the other lines are read as before. -/
theorem valueNames_perm (h : KeptFix parser c language d a next)
    (hreads : a.ReadsOtherLines parser language) :
    ((valueUses parser language d.text).map (·.1)).Perm
      ((valueUses parser language next.text).map (·.1) ++ a.lostNames parser language) := by
  obtain ⟨index, after, root, root', hindex, hafter, hparse, hparse', ⟨t⟩⟩ := hreads
  obtain ⟨index', hindex', hdelete⟩ := h.deletesLine
  obtain rfl : next.text = after := Option.some.inj (h.after.symm.trans hafter)
  rw [← h.before_eq] at hindex' hdelete ⊢
  obtain rfl : index' = index := Option.some.inj (hindex'.symm.trans hindex)
  have hlength := hdelete.lt_length_pieces
  have hbefore := uses_scopeOf_program (Utf8.encode a.before) t.program_before
  rw [t.treeUses_before (lineStart_le_succ hlength) (fun _ => hdelete.take_eq)
    (fun _ => hdelete.drop_eq)] at hbefore
  have hafter := uses_scopeOf_program (Utf8.encode next.text) t.program_after
  rw [t.treeUses_after] at hafter
  have hlost := hbefore.filter fun use =>
    lineIndex? (Text.pieces '\n' a.before) use.2 = some index'
  rw [filter_onLine hlength (fun _ => t.offset_lt_of_mem_front) (fun _ => t.offset_mem_of_mem_cut)
    (fun _ => t.le_offset_of_mem_moved)] at hlost
  have huses : valueUses parser language a.before
      = (scopeOf (Utf8.encode a.before) root).uses := by rw [valueUses, hparse]
  have huses' : valueUses parser language next.text
      = (scopeOf (Utf8.encode next.text) root').uses := by rw [valueUses, hparse']
  rw [Attempt.lostNames, hindex, huses, huses']
  have hrest := (hafter.map (·.1)).append (hlost.map (·.1))
  refine (hbefore.map (·.1)).trans (.trans ?_ hrest.symm)
  rw [List.map_append, List.map_append, List.map_append, List.map_map, List.append_assoc,
    List.append_assoc]
  exact List.perm_append_comm.append_left _

end KeptFix

/-! ## What a run loses -/

/-- **A run loses the uses on the lines it deletes,** if the other lines are read as before. -/
theorem KeptRun.valueNames_eq {d last : Draft} {as : List Attempt}
    (h : KeptRun parser c language d as last)
    (hreads : ∀ a ∈ as, a.ReadsOtherLines parser language) :
    valueNames parser language d.text
      = valueNames parser language last.text
        + (as.flatMap (Attempt.lostNames parser language) : List String) := by
  induction h with
  | done d => exact (add_zero _).symm
  | @step d next last a rest hfix _ ih =>
    have hstep : valueNames parser language d.text
        = valueNames parser language next.text + (a.lostNames parser language : List String) :=
      Multiset.coe_eq_coe.mpr (hfix.valueNames_perm (hreads a List.mem_cons_self))
    rw [hstep, ih fun a ha => hreads a (List.mem_cons_of_mem _ ha), List.flatMap_cons,
      ← Multiset.coe_add, add_assoc, add_comm (Multiset.ofList (rest.flatMap _))]

/-- **What fixing does to the uses in a source.** Each fix that is kept deletes exactly the line on
which an import of a name without a use starts. If the parser reads the other lines as before, then
the names that are used in the source are those used in the result and those used on the deleted lines.
So the uses stay the same exactly if no deleted line holds one. -/
theorem valueNames_fixAll (parser : Parser) (c : RuleConfig) (language : Language) (source : Text) :
    let kept := (fixRun parser c language source).kept
    let fixed := fixAll parser c language source
    (∀ a ∈ kept, a.DeletesUnusedImport parser language) ∧
      ((∀ a ∈ kept, a.ReadsOtherLines parser language) →
        valueNames parser language source
            = valueNames parser language fixed
              + (kept.flatMap (Attempt.lostNames parser language) : List String) ∧
          (valueNames parser language fixed = valueNames parser language source ↔
            ∀ a ∈ kept, a.lostNames parser language = [])) := by
  intro kept fixed
  have hrun : KeptRun parser c language (Draft.ofSource parser c language source) kept
      (Draft.ofSource parser c language fixed) := keptRun_fixRun parser c language source
  constructor
  · intro a ha
    obtain ⟨d, next, hd, hfix⟩ := hrun.exists_of_mem
      (P := fun d => d = Draft.ofSource parser c language d.text)
      (fun hfix _ => hfix.next_eq_ofSource) rfl ha
    exact hfix.deletesUnusedImport hd
  · intro hreads
    have hnames := hrun.valueNames_eq hreads
    refine ⟨hnames, ?_⟩
    change valueNames parser language source = valueNames parser language fixed + _ at hnames
    rw [hnames, left_eq_add, Multiset.coe_eq_zero, List.flatMap_eq_nil_iff]

/-- A call between whose neighbours a line with an unused import is cut out. -/
def neighboursSource : Text := "x();\nimport a from 'a'; y();\nz();\n".toList

/-- The tree of this source. -/
def neighboursTree : Node :=
  shortNode "program" 0 34 [] [shortCall 0 1, shortImport 5, shortCall 24 1, shortCall 29 1]

/-- The tree without the line. -/
def neighboursFixed : Node := shortNode "program" 0 10 [] [shortCall 0 1, shortCall 5 1]

/-- The parser of the source with and without the line. -/
def neighbours : Parser :=
  TreeBank.parser
    [⟨.javascript, neighboursSource, neighboursTree⟩,
     ⟨.javascript, "x();\nz();\n".toList, neighboursFixed⟩]

/-- The line from offset 5 to offset 29 is cut out, and the call behind it moves to its place. -/
def neighboursCut : LineCut 5 29 neighboursTree neighboursFixed where
  front := [shortCall 0 1]
  cut := [shortImport 5, shortCall 24 1]
  rest := [shortCall 5 1]
  program_before := rfl
  program_after := rfl
  before_eq := rfl
  after_eq := rfl
  in_front := by decide
  in_cut := by decide
  in_rest := by decide

/-- The call that shares the line of the import is lost, and its neighbours stay. -/
theorem valueNames_fixAll_neighbours :
    let kept := (fixRun neighbours {} .js neighboursSource).kept
    (∀ a ∈ kept, a.ReadsOtherLines neighbours .js) ∧
      kept.flatMap (Attempt.lostNames neighbours .js) = ["y"] ∧
      valueNames neighbours .js neighboursSource
        = valueNames neighbours .js (fixAll neighbours {} .js neighboursSource)
          + (kept.flatMap (Attempt.lostNames neighbours .js) : List String) := by
  intro kept
  have hkept : kept.map (fun a => (a.before, a.target.start, a.after))
      = [(neighboursSource, 5, some "x();\nz();\n".toList)] := by decide +kernel
  have hreads : ∀ a ∈ kept, a.ReadsOtherLines neighbours .js := by
    intro a ha
    have hmem : (a.before, a.target.start, a.after)
        ∈ kept.map fun a => (a.before, a.target.start, a.after) := List.mem_map_of_mem ha
    rw [hkept, List.mem_singleton, Prod.mk.injEq, Prod.mk.injEq] at hmem
    obtain ⟨hbefore, hstart, hafter⟩ := hmem
    rw [Attempt.ReadsOtherLines, hbefore, hstart, hafter]
    exact ⟨1, _, neighboursTree, neighboursFixed, by decide +kernel, rfl, rfl, rfl,
      ⟨neighboursCut⟩⟩
  refine ⟨hreads, by decide +kernel, ?_⟩
  exact ((valueNames_fixAll neighbours {} .js neighboursSource).2 hreads).1

/-- A parser of two sources whose lines share more than an import. -/
def sharedLines : Parser :=
  shortParser
    [("import a from 'a'; run();\n", [shortImport 0, shortCall 19 3]), ("", []),
     ("import a from 'a'; /*\nfetch(); //*/\n", [shortImport 0, shortNode "comment" 19 35 [] []]),
     ("fetch(); //*/\n", [shortCall 0 5, shortNode "comment" 9 13 [] []])]

/-- A call on the line of an import goes with it. And if a comment starts there, then what it hid comes
to light. -/
theorem valueNames_fixAll_ne :
    let calling := "import a from 'a'; run();\n".toList
    let commenting := "import a from 'a'; /*\nfetch(); //*/\n".toList
    (fixAll sharedLines {} .js calling = [] ∧
      valueNames sharedLines .js calling = {"run"} ∧
      valueNames sharedLines .js (fixAll sharedLines {} .js calling) = 0) ∧
    (fixAll sharedLines {} .js commenting = "fetch(); //*/\n".toList ∧
      valueNames sharedLines .js commenting = 0 ∧
      valueNames sharedLines .js (fixAll sharedLines {} .js commenting) = {"fetch"}) := by
  decide +kernel

end PatchLint
