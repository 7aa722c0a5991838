import PatchLint.Rules.Diagnostic
import PatchLint.Rules.Globals
import PatchLint.Scope.Observe

/-!
# What the rules find

Two rules look at each node while the scope is being filled (`Rule.visit`), two look at the finished
scope (`Rule.finish`).

* A read of a member of a name that nothing has declared so far is a possible access to nothing. A
  declaration further down does not count, as the check runs during the walk.
* A call of `then` whose nearest function is asynchronous lacks an `await`, unless one stands
  anywhere around the call.
* An imported name without a use, as a value or as a type, is unused.
* A used name that is neither bound nor known lacks an import; each of its uses is reported.
-/

namespace PatchLint

open Node

/-! ## Member reads -/

/-- The name and the member of a plain read `name.member`. A guarded read `name?.member` is none. -/
def memberRead? (n : Node) : Option (Node × Node) :=
  if n.kind = "member_expression" then
    match n.field? "object", n.field? "property" with
    | some object, some property =>
      if object.kind = "identifier" && property.kind = "property_identifier"
        && !n.children.any (·.kind == "optional_chain")
      then some (object, property)
      else none
    | _, _ => none
  else none

/-- The message about a member read. -/
def nullAccessMessage (object member : String) : String :=
  "Possible null/undefined access: '" ++ object ++ "." ++ member ++ "' - '" ++ object
    ++ "' might be null or undefined"

/-- Reports a read of a member of a name that nothing has declared so far. -/
def visitMember (c : RuleConfig) (source : List UInt8) (s : Scope) (n : Node) : List Diagnostic :=
  match memberRead? n with
  | none => []
  | some (object, property) =>
    let name := object.text source
    if s.isDeclared name || safeBases.contains name || c.allow.contains name then []
    else
      [c.diagnostic .nullAccess (nullAccessMessage name (property.text source)) n.start n.stop]

/-! ## Promises -/

/-- Whether a node is a call of `then`. -/
def isThenCall (source : List UInt8) (n : Node) : Bool :=
  n.kind == "call_expression" &&
    match n.field? "function" with
    | none => false
    | some callee =>
      callee.kind == "member_expression" &&
        match callee.field? "property" with
        | none => false
        | some property => property.text source == "then"

/-- The nearest function around a node. -/
def nearestFunction? (ancestors : List Node) : Option Node :=
  ancestors.reverse.find? (functionKinds.contains ·.kind)

/-- Whether a function is asynchronous: the keyword is one of its direct children. -/
def isAsync (function : Node) : Bool := function.children.any (·.kind == "async")

/-- Reports a call of `then` that nothing awaits. -/
def visitCall (c : RuleConfig) (source : List UInt8) (v : Visit) : List Diagnostic :=
  if isThenCall source v.node && !v.ancestors.any (·.kind == "await_expression")
    && ((nearestFunction? v.ancestors).map isAsync).getD false
  then
    [c.diagnostic .missingAwait "Missing await on promise in async function"
      v.node.start v.node.stop]
  else []

/-! ## Imports -/

/-- Reports the imported names that are not used. -/
def unusedImports (c : RuleConfig) (s : Scope) : List Diagnostic :=
  (s.imports.filter fun (name, _) => !s.used.contains name && !s.typeReferences.contains name).map
    fun (name, binding) =>
      c.diagnostic .unusedImport ("Unused import: '" ++ name ++ "'") binding.start binding.stop

/-- The number of bytes of a name. -/
def nameWidth (name : String) : Nat := (Utf8.encode name.toList).length

/-- Whether a name is defined for the purpose of imports. -/
def isDefined (c : RuleConfig) (s : Scope) (name : String) : Bool :=
  s.isDeclared name || knownGlobals.contains name || c.globals.contains name

/-- Reports every use of a name that is not defined. -/
def missingImports (c : RuleConfig) (s : Scope) : List Diagnostic :=
  (s.references.filter fun (name, _) => !isDefined c s name).flatMap fun (name, offsets) =>
    offsets.map fun offset =>
      c.diagnostic .missingImport ("Missing import for '" ++ name ++ "'") offset
        (offset + nameWidth name)

/-! ## All rules -/

/-- What a rule finds at a node, with the scope as far as it is known. -/
def Rule.visit (r : Rule) (c : RuleConfig) (source : List UInt8) (s : Scope) (v : Visit) :
    List Diagnostic :=
  match r with
  | .nullAccess => visitMember c source s v.node
  | .missingAwait => visitCall c source v
  | _ => []

/-- What a rule finds in the finished scope. -/
def Rule.finish (r : Rule) (c : RuleConfig) (s : Scope) : List Diagnostic :=
  match r with
  | .unusedImport => unusedImports c s
  | .missingImport => missingImports c s
  | _ => []

end PatchLint
