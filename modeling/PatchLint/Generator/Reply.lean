import PatchLint.Generator.Basic
import PatchLint.Json.Printer
import PatchLint.Text.Blank

/-!
# Replies

The reply of a generator is a JSON object with a diff, a rationale and risks. It may stand inside
other text: then the first balanced pair of braces counts, where braces inside of strings are passed
over.
-/

namespace PatchLint

/-! ## Finding the object -/

/-- Where a search for the closing brace stands: how many braces are open, and whether it is inside a
string, there perhaps behind a backslash. -/
structure BraceState where
  depth : Nat := 0
  inString : Bool := false
  escaped : Bool := false
  deriving DecidableEq, Repr

/-- The state after a character. -/
def BraceState.step (s : BraceState) (c : Char) : BraceState :=
  if s.inString then
    if s.escaped then { s with escaped := false }
    else if c = '\\' then { s with escaped := true }
    else if c = '"' then { s with inString := false }
    else s
  else if c = '"' then { s with inString := true }
  else if c = '{' then { s with depth := s.depth + 1 }
  else if c = '}' then { s with depth := s.depth - 1 }
  else s

/-- The text up to the brace that closes the first one. `seen` is what has been passed, in reverse. -/
def balancedFrom? (s : BraceState) (seen : Text) : Text → Option Text
  | [] => none
  | c :: cs =>
    let next := s.step c
    if c = '}' && !s.inString && next.depth = 0 then some (c :: seen).reverse
    else balancedFrom? next (c :: seen) cs

/-- The first text between balanced braces, from the first opening brace on. -/
def balancedBraces? (t : Text) : Option Text :=
  match t.dropWhile (· ≠ '{') with
  | [] => none
  | rest => balancedFrom? {} [] rest

/-- The members of a JSON value that is an object. -/
def objectFields? : Json → Option (List (String × Json))
  | .obj fields => some fields
  | _ => none

/-- The object that is the value of a text, if the text holds a value and this is an object. -/
def loadObject? (limit : Option Nat) (t : Text) : Except Failure (Option (List (String × Json))) :=
  match loadJson limit t with
  | .ok v => .ok (objectFields? v)
  | .error .invalidValue => .ok none
  | .error f => .error f

/-- The object between the first balanced braces of a text. -/
def embeddedObject (limit : Option Nat) (t : Text) : Except Failure (List (String × Json)) :=
  match balancedBraces? t with
  | none => .error (.generation .invalidResponse)
  | some u =>
    match loadObject? limit u with
    | .error f => .error f
    | .ok none => .error (.generation .invalidResponse)
    | .ok (some fields) => .ok fields

/-- The object in a reply: the whole text, or else what stands between its first balanced braces. -/
def firstObject (limit : Option Nat) (reply : Text) : Except Failure (List (String × Json)) :=
  let t := Text.strip reply
  if t.isEmpty then .error (.generation .noResponse)
  else match loadObject? limit t with
    | .error f => .error f
    | .ok none => embeddedObject limit t
    | .ok (some fields) => .ok fields

/-! ## Reading the object -/

/-- A member that counts only if it is present and not empty. -/
def presentField? (fields : List (String × Json)) (key : String) : Option Json :=
  (Json.lookup key fields).filter Json.isPresent

/-- A member that has to be a text, or else a default. -/
def textField (fields : List (String × Json)) (key default : String) : Except Failure String :=
  match presentField? fields key with
  | none => .ok default
  | some (.str s) => .ok s
  | some _ => .error (.generation .invalidResponse)

/-- The risks: a list of values, or a single text. -/
def risksField (fields : List (String × Json)) : Except Failure (List String) :=
  match presentField? fields "risks" with
  | none => .ok []
  | some (.str s) => .ok [s]
  | some (.arr items) => .ok (items.map Json.display)
  | some _ => .error (.generation .invalidResponse)

/-- The fix that the members of an object describe. -/
def fixOfFields (fields : List (String × Json)) : Except Failure GeneratedFix := do
  let diff ← textField fields "diff" ""
  let rationale ← textField fields "rationale" "Fix applied"
  let risks ← risksField fields
  pure ⟨diff.toList, rationale, risks⟩

/-- The fix that a reply holds. -/
def readReply (limit : Option Nat) (reply : Text) : Except Failure GeneratedFix :=
  firstObject limit reply >>= fixOfFields

end PatchLint
