import PatchLint.Scope.Basic
import PatchLint.Tree.Node

/-!
# Binding patterns

A pattern on the left of a declaration binds the names it introduces. `bindPattern` goes through it
with a stack: it enters the named children of object, array and rest patterns, the value of a pair,
the left side of a default and the pattern of a parameter. Nothing else is entered, so neither keys
nor default values nor types bind anything.

## Termination

Everything that enters the stack is a proper part of the node that left it.
-/

namespace PatchLint

open Node

/-- Binds the name of a node, which is thereby no reference. -/
def bind (source : List UInt8) (offset : Nat) (n : Node) (s : Scope) : Scope :=
  (s.exclude n.span).declare (n.text source) offset

/-- Whether a node of a pattern is a name that is bound. -/
def isBoundName (n : Node) : Bool :=
  ["identifier", "shorthand_property_identifier_pattern"].contains n.kind

/-- The parts of a pattern in which names are bound. -/
def patternParts (n : Node) : List Node :=
  if ["object_pattern", "array_pattern", "rest_pattern"].contains n.kind then n.namedChildren
  else if n.kind = "pair_pattern" then (n.field? "value").toList
  else if ["assignment_pattern", "object_assignment_pattern"].contains n.kind then
    (n.field? "left").toList
  else if ["required_parameter", "optional_parameter"].contains n.kind then
    (n.field? "pattern").toList
  else []

theorem countAll_field?_toList_lt (n : Node) (name : String) :
    countAll (n.field? name).toList < n.count := by
  cases h : n.field? name with
  | none => simpa using count_pos n
  | some c => simpa using count_lt_of_field? h

theorem countAll_patternParts_lt (n : Node) : countAll (patternParts n) < n.count := by
  unfold patternParts
  split
  · exact countAll_namedChildren_lt n
  split
  · exact countAll_field?_toList_lt n _
  split
  · exact countAll_field?_toList_lt n _
  split
  · exact countAll_field?_toList_lt n _
  · simpa using count_pos n

/-- Binds the names of the patterns on the stack. -/
def bindAll (source : List UInt8) (offset : Nat) (s : Scope) : List Node → Scope
  | [] => s
  | n :: stack =>
    if isBoundName n then bindAll source offset (bind source offset n s) stack
    else bindAll source offset s (patternParts n ++ stack)
termination_by stack => countAll stack
decreasing_by
  · have := count_pos n
    rw [countAll_cons]
    omega
  · have := countAll_patternParts_lt n
    rw [countAll_append, countAll_cons]
    omega

/-- Binds the names of a pattern, if there is one, all at the same offset. -/
def bindPattern (source : List UInt8) (offset : Nat) (pattern : Option Node) (s : Scope) : Scope :=
  bindAll source offset s pattern.toList

end PatchLint
