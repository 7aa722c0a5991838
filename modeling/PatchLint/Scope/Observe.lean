import PatchLint.Scope.Pattern
import PatchLint.Text.Case
import PatchLint.Tree.Walk

/-!
# Observing nodes

What each node of a tree contributes to the scope. Declarations, functions, imports and a few other
nodes bind names or mark names that only look like references; identifiers that are not marked are
references.
-/

namespace PatchLint

open Node

/-! ## Kinds -/

/-- Nodes that are functions. -/
def functionKinds : List String :=
  ["function_declaration", "generator_function_declaration", "function_expression", "function",
   "generator_function", "arrow_function", "method_definition"]

/-- Nodes that have parameters and no body. -/
def signatureKinds : List String :=
  ["function_signature", "method_signature", "abstract_method_signature", "call_signature",
   "construct_signature", "function_type", "constructor_type"]

/-- Nodes that are classes. -/
def classKinds : List String := ["class_declaration", "abstract_class_declaration", "class"]

/-- Nodes that declare a name of the type level. -/
def namedDeclarationKinds : List String :=
  ["interface_declaration", "type_alias_declaration", "enum_declaration", "internal_module",
   "type_parameter"]

/-- Nodes whose name is that of a markup element. -/
def markupKinds : List String := ["jsx_opening_element", "jsx_self_closing_element"]

/-! ## Small steps -/

/-- Marks the child that a field names as no reference. -/
def excludeField (n : Node) (name : String) (s : Scope) : Scope :=
  match n.field? name with
  | none => s
  | some child => s.exclude child.span

/-- Marks several nodes as no references. -/
def excludeAll (ns : List Node) (s : Scope) : Scope := ns.foldl (fun s n => s.exclude n.span) s

/-- The text between the quotes of a string node. -/
def stringValue (source : List UInt8) : Option Node → String
  | none => ""
  | some n => String.ofList ((n.text source).toList.drop 1).dropLast

/-! ## Imports -/

/-- The module that an import statement names. -/
def importSource? (n : Node) : Option Node :=
  match n.field? "source" with
  | some m => some m
  | none =>
    ((n.namedChildren.filter (·.kind == "import_require_clause")).flatMap namedChildren).find?
      (·.kind == "string")

/-- What an import specifier binds: its alias, or else the imported name. -/
def specifierLocal? (spec : Node) : Option Node :=
  match spec.field? "alias" with
  | some other => some other
  | none => spec.field? "name"

/-- The import specifiers of a list of names. -/
def importSpecifiers (n : Node) : List Node :=
  n.namedChildren.filter (·.kind == "import_specifier")

/-- The identifiers among the named children of a node. -/
def identifiers (n : Node) : List Node := n.namedChildren.filter (·.kind == "identifier")

/-- The names that one part of an import clause binds. -/
def clausePartLocals (part : Node) : List Node :=
  if part.kind = "identifier" then [part]
  else if part.kind = "namespace_import" then identifiers part
  else if part.kind = "named_imports" then
    ((importSpecifiers part).filterMap specifierLocal?).filter (·.kind == "identifier")
  else []

/-- The names that an import statement binds. -/
def importLocals (n : Node) : List Node :=
  n.namedChildren.flatMap fun clause =>
    if clause.kind = "import_require_clause" then identifiers clause
    else if clause.kind = "import_clause" then clause.namedChildren.flatMap clausePartLocals
    else []

/-- The names that import specifiers take from the other module. -/
def importedNames (n : Node) : List Node :=
  (n.namedChildren.filter (·.kind == "import_clause")).flatMap fun clause =>
    (clause.namedChildren.filter (·.kind == "named_imports")).flatMap fun part =>
      (importSpecifiers part).filterMap (·.field? "name")

/-- Records an import statement. -/
def observeImport (source : List UInt8) (n : Node) (s : Scope) : Scope :=
  let binding : ImportBinding := ⟨n.start, n.stop, stringValue source (importSource? n)⟩
  (importLocals n).foldl
    (fun s l => (s.exclude l.span).declareImport (l.text source) binding)
    (excludeAll (importedNames n) s)

/-! ## Declarations -/

/-- The first part of a dotted name. -/
def dottedHead? (n : Node) : Option Node :=
  match n.field? "object" with
  | some object => some object
  | none => n.namedChildren.head?

theorem count_lt_of_dottedHead? {n c : Node} (h : dottedHead? n = some c) : c.count < n.count := by
  unfold dottedHead? at h
  split at h
  · next hf => cases h; exact count_lt_of_field? hf
  · exact count_lt_of_mem_children (mem_children_of_mem_namedChildren (List.mem_of_mem_head? h))

/-- The name that a declaration binds: of a dotted name the first part. -/
def boundHead? (n : Node) : Option Node :=
  if ["nested_identifier", "member_expression"].contains n.kind then
    match _h : dottedHead? n with
    | none => none
    | some head => boundHead? head
  else some n
termination_by n.count
decreasing_by exact count_lt_of_dottedHead? _h

/-- Binds the name of a class or a type. -/
def observeNamed (source : List UInt8) (n : Node) (s : Scope) : Scope :=
  match (n.field? "name").bind boundHead? with
  | none => s
  | some name =>
    if ["identifier", "type_identifier"].contains name.kind then bind source n.start name s else s

/-- Binds the parameters of a function. -/
def bindParameters (source : List UInt8) (n : Node) (s : Scope) : Scope :=
  let s := bindPattern source n.start (n.field? "parameter") s
  match n.field? "parameters" with
  | none => s
  | some params =>
    params.namedChildren.foldl (fun s p => bindPattern source n.start (some p) s) s

/-- Binds the name and the parameters of a function. -/
def observeFunction (source : List UInt8) (n : Node) (s : Scope) : Scope :=
  let s := match n.field? "name" with
    | none => s
    | some name => if name.kind = "identifier" then bind source n.start name s else s
  bindParameters source n s

/-! ## Exports and markup -/

/-- Marks the names of an export specifier. A name that is passed on from another module is no local
name. -/
def observeExport (n : Node) (ancestors : List Node) (s : Scope) : Scope :=
  let s := excludeField n "alias" s
  match ancestors.reverse.find? (·.kind == "export_statement") with
  | none => s
  | some statement =>
    if (statement.field? "source").isSome then excludeField n "name" s else s

/-- Marks the name of a markup element unless it is capitalized. -/
def observeMarkup (source : List UInt8) (n : Node) (s : Scope) : Scope :=
  match n.field? "name" with
  | none => s
  | some name =>
    if name.kind = "identifier" && !((name.text source).toList.head?.map Text.isCapital).getD false
    then s.exclude name.span
    else s

/-! ## All nodes -/

/-- Records what one node contributes. -/
def observe (source : List UInt8) (s : Scope) (v : Visit) : Scope :=
  let n := v.node
  let kind := n.kind
  if kind = "import_statement" then observeImport source n s
  else if kind = "variable_declarator" then bindPattern source n.start (n.field? "name") s
  else if functionKinds.contains kind || signatureKinds.contains kind then
    observeFunction source n s
  else if classKinds.contains kind || namedDeclarationKinds.contains kind then
    observeNamed source n s
  else if kind = "catch_clause" then bindPattern source n.start (n.field? "parameter") s
  else if kind = "for_in_statement" then
    if (n.field? "kind").isSome then bindPattern source n.start (n.field? "left") s else s
  else if kind = "index_signature" then excludeField n "name" s
  else if kind = "export_specifier" then observeExport n v.ancestors s
  else if kind = "namespace_export" then excludeAll n.namedChildren s
  else if markupKinds.contains kind then observeMarkup source n s
  else if kind = "jsx_closing_element" then excludeField n "name" s
  else if kind = "identifier" || kind = "shorthand_property_identifier" then
    if s.isExcluded n.span then s else s.reference (n.text source) n.start
  else if kind = "type_identifier" then
    if s.isExcluded n.span then s else s.referenceType (n.text source)
  else s

/-- The scope of a whole tree. -/
def scopeOf (source : List UInt8) (root : Node) : Scope := (walk root).foldl (observe source) {}

end PatchLint
