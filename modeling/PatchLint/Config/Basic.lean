import PatchLint.Config.Value
import PatchLint.Rules.Basic

/-!
# Configuration

Everything the user can configure, with its defaults. The patterns that select files are kept as they
stand in the configuration: what is no text is noticed only when it is used.
-/

namespace PatchLint

/-- How findings are printed. -/
inductive OutputFormat where
  | text
  | json
  deriving DecidableEq, Repr

namespace OutputFormat

/-- All formats. -/
def all : List OutputFormat := [.text, .json]

/-- The name of a format. -/
def name : OutputFormat → String
  | .text => "text"
  | .json => "json"

/-- The format of a name. -/
def ofName? (name : String) : Option OutputFormat := all.find? (·.name == name)

end OutputFormat

/-- Where fixes are generated. -/
inductive Provider where
  | none
  | ollama
  | openrouter
  deriving DecidableEq, Repr

namespace Provider

/-- All providers. -/
def all : List Provider := [.none, .ollama, .openrouter]

/-- The name of a provider. -/
def name : Provider → String
  | .none => "none"
  | .ollama => "ollama"
  | .openrouter => "openrouter"

/-- The provider of a name. -/
def ofName? (name : String) : Option Provider := all.find? (·.name == name)

end Provider

/-- How the generator is reached. -/
structure GeneratorConfig where
  provider : Provider := .none
  model : Option String := none
  baseUrl : Option String := none
  timeout : Binary64 := .ofDecimal false 30 2 0
  temperature : Binary64 := .ofDecimal false 3 1 (-1)
  maxTokens : Int := 2000

/-- The patterns of files that are looked at unless others are configured. -/
def defaultInclude : List String :=
  ["**/*.js", "**/*.jsx", "**/*.mjs", "**/*.cjs", "**/*.ts", "**/*.tsx", "**/*.mts", "**/*.cts"]

/-- The patterns of files that are left out unless others are configured. -/
def defaultExclude : List String :=
  ["**/node_modules/**", "**/.*", "**/.git/**", "dist/**", "build/**", "coverage/**", "**/*.min.js"]

/-- A whole configuration. -/
structure Config where
  /-- The file it was read from. -/
  path : Option String := none
  included : List Value := defaultInclude.map .str
  excluded : List Value := defaultExclude.map .str
  outputFormat : OutputFormat := .text
  showSource : Bool := true
  rules : RuleConfig := {}
  generator : GeneratorConfig := {}

end PatchLint
