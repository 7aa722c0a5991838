import PatchLint.Config.Basic
import PatchLint.Config.Validate
import PatchLint.Json.Printer

/-!
# Showing a configuration

A configuration as a text for people and as JSON. Patterns that are no texts cannot be shown as
text, and dates cannot be shown as JSON.
-/

namespace PatchLint

/-- A name list in code point order. -/
def sortNames (names : List String) : List String := names.mergeSort fun a b => decide (a ≤ b)

/-- A pattern list can be shown only if every pattern in it is a text. -/
def patternTexts? (patterns : List Value) : Option (List String) := allTexts? patterns

/-- The excluded patterns as they are shown: the first five, and how many more there are. -/
def excludedText? (patterns : List Value) : Option String :=
  (patternTexts? (patterns.take 5)).map fun shown =>
    joinStrings ", " shown ++
      (if 5 < patterns.length then
        ", ... (" ++ Text.showNat (patterns.length - 5) ++ " more)"
      else "")

/-- A setting of the generator that may be absent. -/
def orProviderDefault : Option String → String
  | none => "(provider default)"
  | some s => if s.isEmpty then "(provider default)" else s

/-- A list of names as it is shown. -/
def namesText (names : List String) : String :=
  let text := joinStrings ", " (sortNames names)
  if text.isEmpty then "(none)" else text

/-- A floating point number as it is shown. -/
def numberText (x : Binary64) : String := String.ofList (NumeralFormat.plain.render x)

/-- Where a configuration comes from. -/
def Config.origin (c : Config) : String := c.path.getD "(defaults)"

/-- The sections of the text form: a title and rows. -/
def Config.sections? (c : Config) : Option (List (String × List String)) := do
  let included ← patternTexts? c.included
  let excluded ← excludedText? c.excluded
  pure [
    ("Files", ["Include: " ++ joinStrings ", " included, "Exclude: " ++ excluded]),
    ("Output",
      ["Format: " ++ c.outputFormat.name,
       "Show source: " ++ (if c.showSource then "True" else "False")]),
    ("Rule Severities", Rule.all.map fun r => r.code ++ ": " ++ (c.rules.severity r).title),
    ("Rule Options",
      ["R2 globals: " ++ namesText c.rules.globals, "R3 allow: " ++ namesText c.rules.allow]),
    ("Generator",
      ["Provider: " ++ c.generator.provider.name,
       "Model: " ++ orProviderDefault c.generator.model,
       "Base URL: " ++ orProviderDefault c.generator.baseUrl,
       "Timeout: " ++ numberText c.generator.timeout ++ "s"])]

/-- A configuration for people. -/
def Config.toText? (c : Config) : Option String :=
  c.sections?.map fun sections =>
    joinStrings "\n" (["CodeFixer Configuration", "Config file: " ++ c.origin] ++
      sections.flatMap fun (title, rows) => ["", title ++ ":"] ++ rows.map ("  " ++ ·))

/-- A text that may be absent, in JSON. -/
def optionalText : Option String → Json
  | none => .null
  | some s => .str s

/-- The severities of all rules, in JSON. -/
def severitiesJson (c : RuleConfig) : Json :=
  .obj (Rule.all.map fun r => (r.code, .str (c.severity r).name))

/-- A list of names in JSON, in code point order. -/
def namesJson (names : List String) : Json := .arr ((sortNames names).map .str)

/-- A configuration as a JSON value. -/
def Config.toJson? (c : Config) : Option Json := do
  let included ← Value.itemsToJson? c.included
  let excluded ← Value.itemsToJson? c.excluded
  let g := c.generator
  pure <| .obj [
    ("config_path", optionalText c.path),
    ("include", .arr included),
    ("exclude", .arr excluded),
    ("output_format", .str c.outputFormat.name),
    ("show_source", .bool c.showSource),
    ("rules", .obj [
      ("severities", severitiesJson c.rules),
      ("R2", .obj [("globals", namesJson c.rules.globals)]),
      ("R3", .obj [("allow", namesJson c.rules.allow)])]),
    ("generator", .obj [
      ("provider", .str g.provider.name),
      ("model", optionalText g.model),
      ("base_url", optionalText g.baseUrl),
      ("timeout", .float g.timeout),
      ("temperature", .float g.temperature),
      ("max_tokens", .int g.maxTokens)])]

end PatchLint
