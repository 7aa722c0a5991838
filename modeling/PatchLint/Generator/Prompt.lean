import PatchLint.Generator.Basic

/-!
# Prompts

The two messages that a request for a fix consists of: what the generator is asked to be, and the
source with its findings and what is known about the project.

A finding is shown with its positions as they are, however many digits they have. `Text.digitLimit` bounds what
is read only; positions in a text are far below it.
-/

namespace PatchLint

/-- What the generator is asked to be. -/
def systemPrompt : String :=
  "You are a precise code fixer. Output ONLY a minimal unified diff for the provided file. "
    ++ "Do not reformat unrelated code. Respect project context (imports, tsconfig). "
    ++ "If fix is risky, prefer a minimal null-check or import fix.\n\n"
    ++ "Your response must be valid JSON with the following structure:\n"
    ++ "\x7b\n  \"diff\": \"unified diff string\",\n  \"rationale\": \"short explanation\",\n"
    ++ "  \"risks\": [\"risk1\", \"risk2\"]\n\x7d"

/-- The names of the dependencies in the value of a package description. -/
def dependencyNamesOf (manifest : Json) : String :=
  match manifest.get? "dependencies" with
  | some (.obj fields) =>
    if fields.isEmpty then "none" else joinStrings ", " (fields.map (·.1))
  | _ => "none"

/-- The names of the dependencies in a package description. There are none if it is no JSON value. -/
def dependencyNames (limit : Option Nat) (packageJson : Text) : Except Failure String :=
  match loadJson limit packageJson with
  | .ok manifest => .ok (dependencyNamesOf manifest)
  | .error .invalidValue => .ok "none"
  | .error f => .error f

/-- The line about a finding. -/
def diagnosticLine (d : Diagnostic) : String :=
  "- [" ++ d.ruleId ++ "] " ++ d.message ++ " (position " ++ Text.showInt d.start ++ "-"
    ++ Text.showInt d.stop ++ ")"

/-- What is said about the dependencies, unless there is no package description. -/
def dependencyLines (limit : Option Nat) : Option Text → Except Failure (List String)
  | none => .ok []
  | some t =>
    if t.isEmpty then .ok []
    else (dependencyNames limit t).map fun names => ["Dependencies: " ++ names]

/-- What is said about the project. -/
def contextText (limit : Option Nat) : Option RepoContext → Except Failure String
  | none => .ok ""
  | some c =>
    (dependencyLines limit c.packageJson).map fun lines =>
      joinStrings "\n" (["Project Context:"] ++ lines
        ++ (if c.hasTsconfig then ["TypeScript enabled"] else []))

/-- The message with the source, its findings and what is said about the project. -/
def promptWith (r : FixRequest) (context : String) : String :=
  joinStrings "\n" [
    "Language: " ++ r.language.name,
    "File: " ++ r.filePath,
    "",
    "Original Code:",
    "```" ++ r.language.name,
    String.ofList r.source,
    "```",
    "",
    "Diagnostics:",
    joinStrings "\n" (r.diagnostics.map diagnosticLine),
    "",
    context,
    "",
    "Generate a minimal unified diff to fix these issues. Return ONLY valid JSON."]

/-- The message to the generator. -/
def userPrompt (limit : Option Nat) (r : FixRequest) : Except Failure String :=
  (contextText limit r.repoContext).map (promptWith r)

end PatchLint
