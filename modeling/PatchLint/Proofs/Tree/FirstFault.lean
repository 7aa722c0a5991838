import Mathlib.Data.List.TakeWhile
import PatchLint.Proofs.Text.Newlines
import PatchLint.Proofs.Tree.Moved
import PatchLint.Tree.Parse

/-!
# The first error of a tree

A parser flags a node if there is an error in the node or below it. The search for the first error goes only
into nodes that are flagged, and keeps the nodes that are still to be looked at on a stack. Where the flags are
right, it finds what a search through all nodes in pre-order finds.

* `hasError_iff` — a right flag says whether there is an error among the nodes of a tree
* `firstFault?_eq_find?` — the search through the trees on a stack is one through their nodes in pre-order
* `getElem?_byteLines_append` — the line of a byte: what stands on it in front of the byte, and what follows
* `describeFault_first` — what is reported is the first error, at its place and with its line
-/

namespace PatchLint

open Node

/-! ## Flags -/

/-- Whether the flags of a tree are right: a node is flagged if it is put in by the parser, if it is an error by
itself, or if one of its children is flagged, and in no other case. -/
def Node.FlagsFaults (root : Node) : Prop :=
  ∀ n ∈ root.nodes, n.info.hasError = true ↔
    n.info.missing = true ∨ n.kind = "ERROR" ∨ ∃ c ∈ n.children, c.info.hasError = true

instance (root : Node) : Decidable root.FlagsFaults :=
  inferInstanceAs (Decidable (∀ n ∈ root.nodes, n.info.hasError = true ↔
    n.info.missing = true ∨ n.kind = "ERROR" ∨ ∃ c ∈ n.children, c.info.hasError = true))

theorem isFault_iff {n : Node} : n.isFault = true ↔ n.info.missing = true ∨ n.kind = "ERROR" := by
  rw [isFault, Bool.or_eq_true, beq_iff_eq]

theorem Node.FlagsFaults.of_mem_children {n c : Node} (h : n.FlagsFaults) (hc : c ∈ n.children) :
    c.FlagsFaults := fun m hm => h m (mem_nodes_of_mem_children hc hm)

/-- **A right flag says whether there is an error among the nodes of a tree.** -/
theorem hasError_iff {n : Node} (h : n.FlagsFaults) :
    n.info.hasError = true ↔ ∃ m ∈ n.nodes, m.isFault = true := by
  induction n using children_induction with
  | step n ih =>
    have hbelow : (∃ c ∈ n.children, c.info.hasError = true) ↔
        ∃ c ∈ n.children, ∃ m ∈ c.nodes, m.isFault = true :=
      exists_congr fun c => and_congr_right fun hc => ih c hc (h.of_mem_children hc)
    rw [h n (self_mem_nodes n), ← or_assoc, ← isFault_iff, hbelow, nodes_eq]
    simp only [List.mem_cons, List.mem_flatMap, exists_eq_or_imp]
    refine or_congr_right ⟨?_, ?_⟩
    · rintro ⟨c, hc, m, hm, hfault⟩
      exact ⟨m, ⟨c, hc, hm⟩, hfault⟩
    · rintro ⟨m, ⟨c, hc, hm⟩, hfault⟩
      exact ⟨c, hc, m, hm, hfault⟩

/-! ## The search -/

/-- **The search through the trees on a stack is one through their nodes in pre-order.** -/
theorem firstFault?_eq_find? {stack : List Node} (h : ∀ n ∈ stack, n.FlagsFaults) :
    firstFault? stack = (stack.flatMap nodes).find? isFault := by
  fun_induction firstFault? stack with
  | case1 => rfl
  | case2 n stack hfault =>
    rw [List.flatMap_cons, nodes_eq, List.cons_append, List.find?_cons_of_pos hfault]
  | case3 n stack hfault hflag ih =>
    obtain ⟨hn, hstack⟩ := List.forall_mem_cons.mp h
    have hchildren : ∀ m ∈ n.children ++ stack, m.FlagsFaults := by
      intro m hm
      rcases List.mem_append.mp hm with hm | hm
      · exact hn.of_mem_children hm
      · exact hstack m hm
    rw [ih hchildren, List.flatMap_append, List.flatMap_cons, nodes_eq n, List.cons_append,
      List.find?_cons_of_neg hfault]
  | case4 n stack hfault hflag ih =>
    obtain ⟨hn, hstack⟩ := List.forall_mem_cons.mp h
    -- a node without a flag is passed over with all that is below it
    have hnone : n.nodes.find? isFault = none := by
      refine List.find?_eq_none.mpr fun m hm hm' => ?_
      exact hflag ((hasError_iff hn).mpr ⟨m, hm, hm'⟩)
    rw [ih hstack, List.flatMap_cons, List.find?_append, hnone, Option.none_or]

/-! ## The line of a byte -/

/-- The bytes of the line that an offset is on, without its newline. -/
def lineAround (source : List UInt8) (offset : Nat) : List UInt8 :=
  Location.lastLine (source.take offset) ++ (source.drop offset).takeWhile (· ≠ newlineByte)

theorem Location.lastLine_of_not_mem {bs : List UInt8} (h : newlineByte ∉ bs) : lastLine bs = bs :=
  lastLine_append [] h

/-- A newline is not on the last line, nor is a byte in front of one. -/
theorem Location.lastLine_cons {b : UInt8} {bs : List UInt8} (h : b = newlineByte ∨ newlineByte ∈ bs) :
    lastLine (b :: bs) = lastLine bs := by
  rw [lastLine, List.reverse_cons, List.takeWhile_append]
  split
  · next hall =>
    have hsame : bs.reverse.takeWhile (· ≠ newlineByte) = bs.reverse :=
      (List.takeWhile_prefix _).eq_of_length hall
    have hbs : newlineByte ∉ bs := by
      intro hmem
      have hkept := List.mem_takeWhile_imp (hsame ▸ List.mem_reverse.mpr hmem)
      simp at hkept
    have hb : b = newlineByte := h.resolve_right hbs
    rw [lastLine, hsame, List.takeWhile_cons_of_neg (by simpa using hb), List.append_nil]
  · rfl

/-- **The line of a byte**: what stands on it in front of the byte, and what follows up to the next newline. -/
theorem getElem?_byteLines_append (bs more : List UInt8) :
    (byteLines (bs ++ more))[bs.count newlineByte]?
      = some (Location.lastLine bs ++ more.takeWhile (· ≠ newlineByte)) := by
  induction bs with
  | nil =>
    induction more with
    | nil => rfl
    | cons b more ih =>
      simp only [List.nil_append] at ih ⊢
      by_cases hb : b = newlineByte
      · rw [byteLines, if_pos hb, List.takeWhile_cons_of_neg (by simpa using hb)]
        rfl
      · obtain ⟨line, lines, hlines⟩ : ∃ line lines, byteLines more = line :: lines :=
          List.exists_cons_of_ne_nil fun h => by simp [h] at ih
        rw [hlines] at ih
        rw [byteLines, if_neg hb, hlines, List.takeWhile_cons_of_pos (by simpa using hb)]
        cases ih
        rfl
  | cons b bs ih =>
    rw [List.cons_append, byteLines]
    by_cases hb : b = newlineByte
    · rw [if_pos hb, Location.lastLine_cons (Or.inl hb), hb, List.count_cons_self, List.getElem?_cons_succ, ih]
    · obtain ⟨line, lines, hlines⟩ : ∃ line lines, byteLines (bs ++ more) = line :: lines :=
        List.exists_cons_of_ne_nil fun h => by simp [h] at ih
      rw [hlines] at ih
      rw [if_neg hb, hlines, List.count_cons_of_ne hb]
      by_cases hbs : newlineByte ∈ bs
      · -- the line is a later one, so the byte does not change it
        obtain ⟨k, hk⟩ := Nat.exists_eq_add_one.mpr (List.count_pos_iff.mpr hbs)
        rw [hk] at ih ⊢
        rw [Location.lastLine_cons (Or.inr hbs)]
        exact ih
      · rw [List.count_eq_zero.mpr hbs] at ih ⊢
        rw [Location.lastLine_of_not_mem hbs] at ih
        rw [Location.lastLine_of_not_mem (by simp [hbs, Ne.symm hb])]
        cases ih
        rfl

/-- The line with the number of an offset is the line that the offset is on. -/
theorem sourceLine?_ofOffset (source : List UInt8) (offset : Nat) :
    sourceLine? source (Location.ofOffset source offset).line
      = some (Utf8.decodeLossy (lineAround source offset)) := by
  have hline := getElem?_byteLines_append (source.take offset) (source.drop offset)
  rw [List.take_append_drop] at hline
  show sourceLine? source ((source.take offset).count newlineByte + 1) = _
  rw [sourceLine?, if_neg (Nat.succ_ne_zero _), Nat.add_sub_cancel, hline]
  rfl

/-! ## The report -/

/-- The report of an error at a node: its line counts the newlines in front of the node, its column the
characters behind the last of them, and its source line is the line that the node starts on. -/
theorem SyntaxFault.at_eq (source : List UInt8) (n : Node) (message : String) :
    SyntaxFault.at source n message =
      { line := (source.take n.start).count newlineByte + 1
        column := (Utf8.decodeLossy (Location.lastLine (source.take n.start))).length + 1
        message := message
        sourceLine := some (Utf8.decodeLossy (lineAround source n.start)) } := by
  rw [SyntaxFault.at, sourceLine?_ofOffset]
  rfl

/-- An error that has been found is not reported as a mere syntax error. -/
theorem faultMessage_ne (n : Node) : n.faultMessage ≠ "Syntax error" := by
  intro h
  have hhead := congrArg (fun s => s.toList.head?) h
  rw [faultMessage] at hhead
  split at hhead
  · simp [String.toList_append] at hhead
  · simp at hhead

/-- **What is reported is the first error of a tree.** If the flags of the tree are right, the search that goes
only into nodes that are flagged finds the node that a search through all nodes in pre-order finds: the first one
that is missing or an error by itself. It is reported with its line, its column and the line of the source that
it starts on. The root is reported instead, as a syntax error, exactly if there is no such node. -/
theorem describeFault_first (source : List UInt8) {root : Node} (h : root.FlagsFaults) :
    let found := root.nodes.find? fun n => n.info.missing || n.kind == "ERROR"
    let report (n : Node) (message : String) : SyntaxFault :=
      { line := (source.take n.start).count newlineByte + 1
        column := (Utf8.decodeLossy (Location.lastLine (source.take n.start))).length + 1
        message := message
        sourceLine := some (Utf8.decodeLossy (lineAround source n.start)) }
    firstFault? [root] = found ∧
    (∀ n, found = some n → describeFault source root =
      report n (if n.info.missing then "Missing '" ++ n.kind ++ "'" else "Unexpected syntax")) ∧
    (found = none → describeFault source root = report root "Syntax error") ∧
    ((describeFault source root).message = "Syntax error" ↔ found = none) := by
  intro found report
  have hfound : firstFault? [root] = found := by
    rw [firstFault?_eq_find? (fun n hn => List.mem_singleton.mp hn ▸ h), List.flatMap_singleton]
    rfl
  have hsome : ∀ n, found = some n → describeFault source root = report n n.faultMessage := by
    intro n hn
    rw [describeFault, hfound, hn]
    exact SyntaxFault.at_eq source n n.faultMessage
  have hnone : found = none → describeFault source root = report root "Syntax error" := by
    intro hn
    rw [describeFault, hfound, hn]
    exact SyntaxFault.at_eq source root "Syntax error"
  refine ⟨hfound, hsome, hnone, fun hmessage => ?_, fun hn => by rw [hnone hn]⟩
  cases hn : found with
  | none => rfl
  | some n =>
    rw [hsome n hn] at hmessage
    exact absurd hmessage (faultMessage_ne n)

/-- A bracket that the parser has put in, deep in a statement behind one without errors, and an error behind it.
The bracket has no name, and a character of two bytes stands in front of it. -/
theorem describeFault_first_bracket :
    let node (kind : String) (start stop : Nat) (named missing hasError : Bool) : List Node → Node :=
      .mk ⟨kind, start, stop, named, missing, hasError, []⟩
    let root := node "program" 0 11 true false true
      [node "expression_statement" 0 2 true false false [node "identifier" 0 1 true false false []],
        node "expression_statement" 3 7 true false true
          [node "call_expression" 3 6 true false true
            [node "identifier" 3 5 true false false [],
              node "arguments" 5 6 true false true
                [node "(" 5 6 false false false [], node ")" 6 6 false true true []]]],
        node "ERROR" 8 11 true false true []]
    let source := Utf8.encode "a;\né(;\n)))".toList
    root.FlagsFaults ∧
      describeFault source root = ⟨2, 3, "Missing ')'", some "é(;".toList⟩ := by
  intro node root source
  have hflags : root.FlagsFaults := by decide +kernel
  obtain ⟨-, hfirst, -, -⟩ := describeFault_first source hflags
  refine ⟨hflags, (hfirst (node ")" 6 6 false true true []) ?_).trans ?_⟩
  · rfl
  · decide +kernel

end PatchLint
