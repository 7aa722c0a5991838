import PatchLint.Json.Basic
import PatchLint.Tree.Parse

/-!
# Tree banks

Trees come from outside, written in JSON: for each text and grammar a list of rows in pre-order. A row
is a list of six: depth, kind, the two ends of the span, flags, and the names of its fields with commas
between them. The flags are summed: one for a named node, two for a missing one, four for an error in
the node or below it.

A bank of such trees is a parser. A text that it does not hold cannot be parsed.
-/

namespace PatchLint

/-- The information in the flags and names of a row. -/
def NodeInfo.ofParts (kind : String) (start stop flags : Nat) (names : String) : NodeInfo where
  kind := kind
  start := start
  stop := stop
  named := flags % 2 == 1
  missing := flags / 2 % 2 == 1
  hasError := flags / 4 % 2 == 1
  fields := (Text.pieces ',' names.toList).map String.ofList

namespace Node

/-- The row that a JSON value describes. -/
def Row.ofJson? : Json → Option Row
  | .arr [.int depth, .str kind, .int start, .int stop, .int flags, .str names] =>
    some ⟨depth.toNat, .ofParts kind start.toNat stop.toNat flags.toNat names⟩
  | _ => none

/-- The tree whose rows a JSON value lists. -/
def ofJson? : Json → Option Node
  | .arr rows => (rows.mapM Row.ofJson?).bind ofRows?
  | _ => none

/-- What stands for the tree of a text that has none: an error without a place. -/
def unknown : Node := .mk { (default : NodeInfo) with hasError := true } []

end Node

namespace Grammar

/-- All grammars. -/
def all : List Grammar := [.javascript, .typescript, .tsx]

/-- The grammar of a name. -/
def ofName? (name : String) : Option Grammar := all.find? (·.name == name)

end Grammar

/-- A text with its tree under a grammar. -/
structure ParsedText where
  grammar : Grammar
  source : Text
  tree : Node

/-- The parsed text that a JSON value describes. -/
def ParsedText.ofJson? (j : Json) : Option ParsedText :=
  match j.get? "grammar", j.get? "source", j.get? "nodes" with
  | some (.str grammar), some (.str source), some nodes =>
    match Grammar.ofName? grammar, Node.ofJson? nodes with
    | some grammar, some tree => some ⟨grammar, source.toList, tree⟩
    | _, _ => none
  | _, _, _ => none

/-- A bank of trees. -/
abbrev TreeBank := List ParsedText

/-- The bank that a JSON value lists; items that describe no tree are left out. -/
def TreeBank.ofJson : Json → TreeBank
  | .arr items => items.filterMap ParsedText.ofJson?
  | _ => []

/-- The parser that looks texts up in a bank. -/
def TreeBank.parser (bank : TreeBank) : Parser := fun grammar source =>
  match bank.find? fun p => p.grammar = grammar ∧ p.source = source with
  | some p => p.tree
  | none => .unknown

end PatchLint
