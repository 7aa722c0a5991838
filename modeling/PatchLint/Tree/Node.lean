import PatchLint.Text.Utf8

/-!
# Concrete trees

A node of a concrete tree has a kind, a span of bytes, three flags, the names of the fields under
which its parent knows it, and its children in the order of the text. *Named* nodes are the ones the
grammar has a rule for; the others are keywords and punctuation.

A tree can be given as a list of rows in pre-order, each with its depth (`Node.ofRows?`).
-/

namespace PatchLint

/-- What is known of a node by itself. -/
structure NodeInfo where
  kind : String
  start : Nat
  stop : Nat
  named : Bool
  /-- The parser has put this node in, although the text does not hold it. -/
  missing : Bool
  /-- There is an error in this node or below it. -/
  hasError : Bool
  fields : List String
  deriving DecidableEq, Repr, Inhabited

/-- A node with its children. -/
inductive Node where
  | mk (info : NodeInfo) (children : List Node)
  deriving Repr

namespace Node

instance : Inhabited Node := ⟨.mk default []⟩

/-- The node by itself. -/
def info : Node → NodeInfo
  | .mk info _ => info

/-- All children, in the order of the text. -/
def children : Node → List Node
  | .mk _ children => children

/-- The kind of a node. -/
def kind (n : Node) : String := n.info.kind

/-- The first byte of a node. -/
def start (n : Node) : Nat := n.info.start

/-- The byte after the last one of a node. -/
def stop (n : Node) : Nat := n.info.stop

/-- The span of a node. -/
def span (n : Node) : Nat × Nat := (n.start, n.stop)

/-- The named children. -/
def namedChildren (n : Node) : List Node := n.children.filter (·.info.named)

/-- The child that a field names; of several the first. -/
def field? (n : Node) (name : String) : Option Node :=
  n.children.find? (·.info.fields.contains name)

/-- The bytes of a node in the source. -/
def bytes (source : List UInt8) (n : Node) : List UInt8 :=
  (source.drop n.start).take (n.stop - n.start)

/-- The text of a node; bytes that are no character are replaced. -/
def text (source : List UInt8) (n : Node) : String :=
  String.ofList (Utf8.decodeLossy (n.bytes source))

/-! ## Counting -/

mutual

/-- The number of nodes in a tree. -/
def count : Node → Nat
  | .mk _ children => countAll children + 1

/-- The number of nodes in several trees. -/
def countAll : List Node → Nat
  | [] => 0
  | n :: ns => n.count + countAll ns

end

@[simp] theorem countAll_nil : countAll [] = 0 := by simp [countAll]

@[simp] theorem countAll_cons (n : Node) (ns : List Node) :
    countAll (n :: ns) = n.count + countAll ns := by simp [countAll]

@[simp] theorem countAll_append (ns ms : List Node) :
    countAll (ns ++ ms) = countAll ns + countAll ms := by
  induction ns with
  | nil => simp
  | cons n ns ih => simp [ih, Nat.add_assoc]

theorem countAll_filter_le (p : Node → Bool) (ns : List Node) :
    countAll (ns.filter p) ≤ countAll ns := by
  induction ns with
  | nil => simp
  | cons n ns ih =>
    simp only [List.filter_cons]
    split <;> simp only [countAll_cons] <;> omega

theorem count_le_countAll {n : Node} {ns : List Node} (h : n ∈ ns) : n.count ≤ countAll ns := by
  induction ns with
  | nil => cases h
  | cons m ns ih =>
    rcases List.mem_cons.mp h with rfl | h
    · simp
    · have := ih h
      simp only [countAll_cons]
      omega

theorem count_eq (n : Node) : n.count = countAll n.children + 1 := by
  cases n with
  | mk i cs => simp [count, children]

theorem count_pos (n : Node) : 0 < n.count := by rw [count_eq]; omega

theorem countAll_namedChildren_lt (n : Node) : countAll n.namedChildren < n.count := by
  have := countAll_filter_le (·.info.named) n.children
  rw [count_eq]
  simp only [namedChildren]
  omega

theorem count_lt_of_mem_children {n c : Node} (h : c ∈ n.children) : c.count < n.count := by
  have := count_le_countAll h
  rw [count_eq n]
  omega

theorem mem_children_of_field? {n c : Node} {name : String} (h : n.field? name = some c) :
    c ∈ n.children := List.mem_of_find?_eq_some h

theorem count_lt_of_field? {n c : Node} {name : String} (h : n.field? name = some c) :
    c.count < n.count := count_lt_of_mem_children (mem_children_of_field? h)

theorem mem_children_of_mem_namedChildren {n c : Node} (h : c ∈ n.namedChildren) :
    c ∈ n.children := (List.mem_filter.mp h).1

/-! ## Rows -/

/-- A node by itself, at a depth. -/
structure Row where
  depth : Nat
  info : NodeInfo
  deriving DecidableEq, Repr

/-- Puts a row in front of the trees built from the rows after it: the trees that directly follow
and lie deeper become its children. -/
def attach (row : Row) (built : List (Nat × Node)) : List (Nat × Node) :=
  let below := built.takeWhile (row.depth < ·.1)
  let others := built.dropWhile (row.depth < ·.1)
  (row.depth, .mk row.info (below.map (·.2))) :: others

/-- The tree that rows in pre-order describe; the first row is its root. -/
def ofRows? (rows : List Row) : Option Node := (rows.foldr attach []).head?.map (·.2)

end Node

end PatchLint
