import PatchLint.Json.Reader
import PatchLint.Number.Numeral
import PatchLint.Rules.Diagnostic
import PatchLint.Tree.Parse

/-!
# Fix generators

A generator is asked for a diff that fixes the findings of a file. It may fail, and it may keep a
state of its own from one request to the next (the answers that are still to come, the requests made
so far). The diff it returns has not been checked.

Callers know of one kind of failure (`GenerationError`). On the way to a fix other things can go wrong
(`Failure`): a request, a text that is no JSON value, an item that a value does not have. Each of them
has to be caught where it may arise, or else it ends the run of the caller.
-/

namespace PatchLint

/-- What is known about the project a file belongs to. -/
structure RepoContext where
  packageJson : Option Text := none
  hasTsconfig : Bool := false
  deriving DecidableEq, Repr

/-- A request for a fix. -/
structure FixRequest where
  source : Text
  language : Language
  filePath : String
  diagnostics : List Diagnostic
  repoContext : Option RepoContext := none

/-- A fix as a generator returns it. -/
structure GeneratedFix where
  diff : Text
  rationale : String := "Fix applied"
  risks : List String := []
  deriving DecidableEq, Repr

/-- Why a generator has no answer. -/
inductive GenerationError where
  | timedOut (seconds : Binary64)
  | requestFailed (reason : String)
  | notJson
  | noResponse
  | invalidResponse
  | other (message : String)
  deriving DecidableEq, Repr

/-- The wording of a failure. -/
def GenerationError.message : GenerationError → String
  | .timedOut seconds =>
    "Generator timed out after " ++ String.ofList (NumeralFormat.plain.render seconds) ++ "s"
  | .requestFailed reason => "Generator request failed: " ++ reason
  | .notJson => "Generator returned a non-JSON response"
  | .noResponse => "No response from generator"
  | .invalidResponse => "Invalid JSON response from generator"
  | .other message => message

/-- What can end an attempt to generate a fix. -/
inductive Failure where
  /-- The failure that callers know of. -/
  | generation (error : GenerationError)
  /-- No answer came in time. -/
  | timedOut
  /-- The request failed. -/
  | request (reason : String)
  /-- A text does not hold what it should. -/
  | invalidValue
  /-- An object has no such member. -/
  | missingKey
  /-- A list or a text has no such position. -/
  | outOfRange
  /-- A value has no items, or none that are asked for like this. -/
  | wrongType
  /-- A JSON text goes deeper than its reader may. -/
  | nesting
  deriving DecidableEq, Repr

/-- The failure that callers are told of. Only failures that are a `GenerationError` already are really told; the
others get a wording to make a total function of it. `nesting` is one that does not arise without a limit. -/
def Failure.toGeneration : Failure → GenerationError
  | .generation error => error
  | .timedOut | .request _ => .other "request failed"
  | .invalidValue => .other "invalid value"
  | .missingKey | .outOfRange | .wrongType => .other "no such item"
  | .nesting => .other "nested too deeply"

/-- The value of a JSON text, for a reader that goes no deeper than a limit. -/
def loadJson (limit : Option Nat) (t : Text) : Except Failure Json :=
  match Json.parseWithin limit t with
  | .ok v => .ok v
  | .error f => .error (if f.cause.isNesting then .nesting else .invalidValue)

/-- Answers a request, from one state to the next. -/
abbrev Generator (σ : Type) := FixRequest → σ → Except GenerationError GeneratedFix × σ

end PatchLint
