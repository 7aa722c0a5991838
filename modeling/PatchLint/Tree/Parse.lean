import PatchLint.Tree.Location
import PatchLint.Tree.Node

/-!
# Parsing sources

The grammars themselves are given from outside: a `Parser` answers every text with a tree. A
language has one or more grammars, which are tried in order; the first tree without an error wins,
and if there is none, the first error of the first tree is reported.

A file is parsed by `parseSource`, whose result has room for a tree and for an error; `parse` gives one of
the two. The search for an error goes only into nodes that are flagged as containing one.

## Termination

As in a walk, a node leaves the stack and at most its children enter it.
-/

namespace PatchLint

open Node

/-- A source language. -/
inductive Language where
  | js
  | ts
  deriving DecidableEq, Repr

/-- The short name of a language. -/
def Language.name : Language → String
  | .js => "js"
  | .ts => "ts"

/-- The language of a short name. -/
def Language.ofName? (name : String) : Option Language :=
  if name = "js" then some .js else if name = "ts" then some .ts else none

/-- A grammar that a source can be parsed with. -/
inductive Grammar where
  | javascript
  | typescript
  | tsx
  deriving DecidableEq, Repr

/-- The name of a grammar. -/
def Grammar.name : Grammar → String
  | .javascript => "javascript"
  | .typescript => "typescript"
  | .tsx => "tsx"

/-- The grammars of a language, in the order in which they are tried. Plain TypeScript comes first:
the other dialect knows markup and rejects casts in angle brackets. -/
def Language.grammars : Language → List Grammar
  | .js => [.javascript]
  | .ts => [.typescript, .tsx]

/-- Answers a text with its tree under a grammar. -/
abbrev Parser := Grammar → Text → Node

/-! ## The first error -/

/-- An error in a source. -/
structure SyntaxFault where
  line : Nat
  column : Nat
  message : String
  sourceLine : Option Text
  deriving DecidableEq, Repr

/-- Whether a node is an error by itself. -/
def Node.isFault (n : Node) : Bool := n.info.missing || n.kind == "ERROR"

/-- The first error among the nodes on the stack and below them. -/
def firstFault? : List Node → Option Node
  | [] => none
  | n :: stack =>
    if n.isFault then some n
    else if n.info.hasError then firstFault? (n.children ++ stack)
    else firstFault? stack
termination_by stack => countAll stack
decreasing_by
  · rw [countAll_append, countAll_cons, count_eq]; omega
  · rw [countAll_cons]; have := count_pos n; omega

/-- The wording for a node that is an error by itself. -/
def Node.faultMessage (n : Node) : String :=
  if n.info.missing then "Missing '" ++ n.kind ++ "'" else "Unexpected syntax"

/-- The report of an error at a node. -/
def SyntaxFault.at (source : List UInt8) (n : Node) (message : String) : SyntaxFault :=
  let place := Location.ofOffset source n.start
  ⟨place.line, place.column, message, sourceLine? source place.line⟩

/-- The first error of a tree; the root stands for an error that cannot be found. -/
def describeFault (source : List UInt8) (root : Node) : SyntaxFault :=
  match firstFault? [root] with
  | some n => .at source n n.faultMessage
  | none => .at source root "Syntax error"

/-! ## Parsing -/

/-- The grammars that find an error in a text before one accepts it. -/
def rejections (parser : Parser) (source : Text) (grammars : List Grammar) : List Grammar :=
  grammars.takeWhile fun g => (parser g source).info.hasError

/-- The first tree without an error. -/
def acceptedTree? (parser : Parser) (source : Text) (grammars : List Grammar) : Option Node :=
  (grammars.map (parser · source)).find? (!·.info.hasError)

/-- The tree of a source, or its first error. -/
def parse (parser : Parser) (language : Language) (source : Text) : Except SyntaxFault Node :=
  match acceptedTree? parser source language.grammars with
  | some tree => .ok tree
  | none =>
    let first := match language.grammars with
      | [] => default
      | g :: _ => parser g source
    .error (describeFault (Utf8.encode source) first)

/-- What is known of a source after the grammars have been tried. -/
structure ParseResult where
  tree : Option Node
  fault : Option SyntaxFault

/-- Tries grammars in their order. The error is the one of the first grammar that was tried in vain. -/
def tryGrammars (parser : Parser) (source : Text) (fault : Option SyntaxFault) :
    List Grammar → ParseResult
  | [] => ⟨none, fault⟩
  | g :: rest =>
    let root := parser g source
    if root.info.hasError then
      tryGrammars parser source (fault.or (some (describeFault (Utf8.encode source) root))) rest
    else ⟨some root, none⟩

/-- Parses a source with the grammars of its language. -/
def parseSource (parser : Parser) (language : Language) (source : Text) : ParseResult :=
  tryGrammars parser source none language.grammars

end PatchLint
