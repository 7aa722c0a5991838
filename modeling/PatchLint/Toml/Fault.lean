import PatchLint.Text.Decimal
import PatchLint.Text.Quoted

/-!
# Faults of a TOML document

What is wrong with a text that is no TOML document, and where. Readers work on what is left of the
input, so a fault holds how much was left when it was found; its line and column follow from the whole
document.
-/

namespace PatchLint.Toml

/-- A dotted key. -/
abbrev Key := List String

/-- What is wrong. -/
inductive Problem where
  | invalidStatement
  | unfinishedLine
  | missing (mark : Text)
  | invalidCharacter (c : Char)
  | illegalCharacter (c : Char)
  | unterminatedString
  | loneBackslash
  | invalidHex
  | notAScalar
  | invalidKeyPart
  | missingEquals
  | invalidValue
  | invalidDate
  | unclosedArray
  | unclosedInlineTable
  | unclosedHeader
  | unclosedListHeader
  | duplicateMember (name : String)
  | overwritten
  | redefined (key : Key)
  | declaredTwice (key : Key)
  | immutable (key : Key)
  deriving DecidableEq, Repr

/-- A key as it is shown: its parts in parentheses, with a comma behind a part that is alone. -/
def showKey (key : Key) : String :=
  let parts := key.map fun part => String.ofList (Text.quoted part.toList)
  match parts with
  | [part] => "(" ++ part ++ ",)"
  | parts => "(" ++ joinStrings ", " parts ++ ")"

/-- The wording of a problem. -/
def Problem.message : Problem → String
  | .invalidStatement => "Invalid statement"
  | .unfinishedLine => "Expected newline or end of document after a statement"
  | .missing mark => "Expected " ++ String.ofList (Text.quoted mark)
  | .invalidCharacter c => "Found invalid character " ++ String.ofList (Text.quoted [c])
  | .illegalCharacter c => "Illegal character " ++ String.ofList (Text.quoted [c])
  | .unterminatedString => "Unterminated string"
  | .loneBackslash => "Unescaped '\\' in a string"
  | .invalidHex => "Invalid hex value"
  | .notAScalar => "Escaped character is not a Unicode scalar value"
  | .invalidKeyPart => "Invalid initial character for a key part"
  | .missingEquals => "Expected '=' after a key in a key/value pair"
  | .invalidValue => "Invalid value"
  | .invalidDate => "Invalid date or datetime"
  | .unclosedArray => "Unclosed array"
  | .unclosedInlineTable => "Unclosed inline table"
  | .unclosedHeader => "Expected ']' at the end of a table declaration"
  | .unclosedListHeader => "Expected ']]' at the end of an array declaration"
  | .duplicateMember name => "Duplicate inline table key " ++ String.ofList (Text.quoted name.toList)
  | .overwritten => "Cannot overwrite a value"
  | .redefined key => "Cannot redefine namespace " ++ showKey key
  | .declaredTwice key => "Cannot declare " ++ showKey key ++ " twice"
  | .immutable key => "Cannot mutate immutable namespace " ++ showKey key

/-- A problem and how many characters were left where it was found. -/
structure Fault where
  problem : Problem
  left : Nat
  deriving DecidableEq, Repr

/-- The place of a fault in a document, in words. Lines and columns are counted from one. -/
def Fault.place (f : Fault) (document : Text) : String :=
  if f.left = 0 then "end of document"
  else
    let before := document.take (document.length - f.left)
    let column := (before.reverse.takeWhile (· ≠ '\n')).length + 1
    "line " ++ Text.showNat (before.count '\n' + 1) ++ ", column " ++ Text.showNat column

/-- The wording of a fault in a document. -/
def Fault.message (f : Fault) (document : Text) : String :=
  f.problem.message ++ " (at " ++ f.place document ++ ")"

/-- What a reader gives: what it has read with the input that is left, or a fault. -/
abbrev Reading (α : Type) := Except Fault (α × Text)

/-- Finds a fault where `t` is left of the input. -/
def fail {α : Type} (problem : Problem) (t : Text) : Except Fault α := .error ⟨problem, t.length⟩

end PatchLint.Toml
