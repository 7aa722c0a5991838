import PatchLint.Config.Basic
import PatchLint.Json.Basic
import PatchLint.Text.Case
import PatchLint.Text.Quoted

/-!
# Checking a configuration

`Config.ofValue` turns a table of settings into a configuration. Wrong settings are collected and
reported together, in a fixed order. Four things end the check at once: settings that are no table
at all, rule settings that are no table, a number that is too large for a floating point number, and a value
that has to be printed and is nested too deeply. Three settings are printed if they are wrong, although no
problem shows what was printed: the output format, the provider, and the severity in the table of a rule. A
number with too many digits cannot be printed either, but this counts as a wrong setting like any other.
-/

namespace PatchLint

open Json (lookup)

/-- Why settings are no configuration. -/
inductive ConfigFault where
  /-- Settings with these problems. -/
  | invalid (problems : List String)
  /-- Something else where a table has to be. -/
  | notATable
  /-- A number outside the range of floating point numbers. -/
  | overflow
  /-- A value that is nested too deeply to be printed. -/
  | tooDeep
  deriving DecidableEq, Repr

/-- The wording for a list of problems. -/
def problemsMessage (problems : List String) : String :=
  joinStrings "\n" ("Configuration errors:" :: problems.map ("  - " ++ ·))

/-- A setting, or else the default, and the problems with it. -/
abbrev Checked (α : Type) := α × List String

/-- Names as they are listed in a message. -/
def nameList (names : List String) : String :=
  let quoted := names.map fun n => String.ofList (Text.quoted n.toList)
  "[" ++ joinStrings ", " quoted ++ "]"

/-! ## Patterns and names -/

/-- A list of patterns. -/
def checkPatterns (settings : List (String × Value)) (key : String) (default : List String) :
    Checked (List Value) :=
  match lookup key settings with
  | none => (default.map .str, [])
  | some (.arr items) => (items, [])
  | some other => (default.map .str, [key ++ " must be a list, got " ++ other.kindName])

/-- The texts of a list of values that are all texts. -/
def allTexts? : List Value → Option (List String)
  | [] => some []
  | .str s :: rest => (allTexts? rest).map (s :: ·)
  | _ :: _ => none

/-- A list of names. -/
def checkNames (settings : List (String × Value)) (key label : String) : Checked (List String) :=
  let problem := [label ++ " must be a list of names"]
  match lookup key settings with
  | none => ([], [])
  | some (.arr items) =>
    match allTexts? items with
    | some names => (names.eraseDups, [])
    | none => ([], problem)
  | some _ => ([], problem)

/-! ## Choices and truth values -/

/-- A setting that has to be one of several names. -/
def checkChoice {α : Type} (ofName? : String → Option α) (names : List String)
    (settings : List (String × Value)) (key label : String) (default : α) : Checked α :=
  match lookup key settings with
  | none => (default, [])
  | some value =>
    match value.text?.bind ofName? with
    | some choice => (choice, [])
    | none => (default, [label ++ " must be one of " ++ nameList names])

/-- A setting that has to be true or false. -/
def checkBool (settings : List (String × Value)) (key : String) (default : Bool) : Checked Bool :=
  match lookup key settings with
  | none => (default, [])
  | some (.bool b) => (b, [])
  | some _ => (default, [key ++ " must be a boolean"])

/-! ## Rules -/

/-- A letter in lower case. The result is only compared with names in ASCII, so other letters can
stay as they are. -/
def lowerAscii (s : String) : String := String.ofList (s.toList.map Char.toLower)

/-- The severity that a value names, in any case. -/
def severityOf? (v : Value) : Option Severity :=
  v.text?.bind fun s => Severity.ofName? (lowerAscii s)

/-- The rule that a key names, in any case. -/
def ruleOfKey? (key : String) : Option Rule := Rule.ofCode? (String.ofList (Text.upper key.toList))

/-- The severity that the settings of a rule give, if they give one; `none` inside says that it is
no severity. The label tells where it stands. -/
def ruleSeverity? (key : String) : Value → Option (String × Option Severity)
  | .str s => some ("rules." ++ key, severityOf? (.str s))
  | .table fields =>
    (lookup "severity" fields).map fun v => ("rules." ++ key ++ ".severity", severityOf? v)
  | _ => none

/-- Changes the severity of one rule. -/
def setSeverity (severity : Rule → Severity) (rule : Rule) (s : Severity) : Rule → Severity :=
  fun r => if r = rule then s else severity r

/-- Takes the settings under one key into account. -/
def checkRule (sofar : Checked (Rule → Severity)) (entry : String × Value) :
    Checked (Rule → Severity) :=
  let (severity, problems) := sofar
  match ruleOfKey? entry.1 with
  | none => (severity, problems ++ ["rules." ++ entry.1 ++ " is not a known rule code"])
  | some rule =>
    match ruleSeverity? entry.1 entry.2 with
    | none => (severity, problems)
    | some (_, some s) => (setSeverity severity rule s, problems)
    | some (label, none) =>
      (severity, problems ++ [label ++ " must be one of " ++ nameList (Severity.all.map (·.name))])

/-- The option of a rule that is a list of names. The rule is looked up by its exact code. -/
def checkRuleOption (settings : List (String × Value)) (rule : Rule) (option : String) :
    Checked (List String) :=
  match lookup rule.code settings with
  | some (.table fields) => checkNames fields option ("rules." ++ rule.code ++ "." ++ option)
  | _ => ([], [])

/-- The settings of all rules. -/
def checkRules (settings : List (String × Value)) : Checked RuleConfig :=
  let (severity, problems) := settings.foldl checkRule (Rule.defaultSeverity, [])
  let (globals, globalsProblems) := checkRuleOption settings .missingImport "globals"
  let (allow, allowProblems) := checkRuleOption settings .nullAccess "allow"
  (⟨severity, globals, allow⟩, problems ++ globalsProblems ++ allowProblems)

/-! ## Generator -/

/-- A setting that may be a text. -/
def checkText (settings : List (String × Value)) (key : String) : Checked (Option String) :=
  match lookup key settings with
  | none | some .null => (none, [])
  | some (.str s) => (some s, [])
  | some _ => (none, ["generator." ++ key ++ " must be a string"])

/-- A number as a floating point number. `none` is a number that is too large. -/
def numberOf? : Value → Option (Option Binary64)
  | .int n => some (Binary64.ofInt? n)
  | .float x => some (some x)
  | _ => none

/-- Whether a number is zero or negative. -/
def isAtMostZero : Value → Bool
  | .int n => n ≤ 0
  | .float x => x.atMostZero
  | _ => false

/-- A setting that has to be a number and pass a test; the outer `none` is a number that is too
large. -/
def checkNumber (settings : List (String × Value)) (key problem : String) (passes : Value → Bool)
    (default : Binary64) : Option (Checked Binary64) :=
  match lookup key settings with
  | none => some (default, [])
  | some v =>
    match numberOf? v with
    | none => some (default, ["generator." ++ key ++ " must be " ++ problem])
    | some x =>
      if passes v then x.map (·, [])
      else some (default, ["generator." ++ key ++ " must be " ++ problem])

/-- A setting that has to be a positive integer. -/
def checkCount (settings : List (String × Value)) (key : String) (default : Int) : Checked Int :=
  match lookup key settings with
  | none => (default, [])
  | some (.int n) =>
    if 0 < n then (n, []) else (default, ["generator." ++ key ++ " must be a positive integer"])
  | some _ => (default, ["generator." ++ key ++ " must be a positive integer"])

/-- The settings of the generator; `none` is a number that is too large. -/
def checkGenerator : Option Value → Option (Checked GeneratorConfig)
  | none => some ({}, [])
  | some (.table settings) => do
    let defaults : GeneratorConfig := {}
    let (provider, p1) := checkChoice Provider.ofName? (Provider.all.map (·.name)) settings
      "provider" "generator.provider" defaults.provider
    let (model, p2) := checkText settings "model"
    let (baseUrl, p3) := checkText settings "base_url"
    let (timeout, p4) ← checkNumber settings "timeout" "a positive number" (!isAtMostZero ·)
      defaults.timeout
    let (temperature, p5) ← checkNumber settings "temperature" "a number" (fun _ => true)
      defaults.temperature
    let (maxTokens, p6) := checkCount settings "max_tokens" defaults.maxTokens
    pure (⟨provider, model, baseUrl, timeout, temperature, maxTokens⟩,
      p1 ++ p2 ++ p3 ++ p4 ++ p5 ++ p6)
  | some _ => some ({}, ["generator must be a table"])

/-! ## Printing -/

/-- How deeply calls can be nested where a setting is printed. -/
structure PrintLimits where
  outputFormat : Option Nat := none
  severity : Option Nat := none
  provider : Option Nat := none

/-- Whether a setting that has to be one of several names is none of them and is nested too deeply. -/
def choiceTooDeep {α : Type} (limit : Option Nat) (ofName? : String → Option α)
    (settings : List (String × Value)) (key : String) : Bool :=
  (lookup key settings).any fun v => (v.text?.bind ofName?).isNone && v.printsTooDeep limit

/-- Whether the severity in the settings under one key is no text and is nested too deeply. -/
def severityTooDeep (limit : Option Nat) (entry : String × Value) : Bool :=
  match ruleOfKey? entry.1, entry.2 with
  | some _, .table fields =>
    (lookup "severity" fields).any fun v => v.text?.isNone && v.printsTooDeep limit
  | _, _ => false

/-- Whether the provider in the settings of the generator is nested too deeply. -/
def providerTooDeep (limit : Option Nat) : Option Value → Bool
  | some (.table settings) => choiceTooDeep limit Provider.ofName? settings "provider"
  | _ => false

/-! ## Everything -/

/-- The table of rule settings; none are settings of no rule. -/
def rulesTable? : Option Value → Option (List (String × Value))
  | none => some []
  | some v => v.table?

/-- The configuration of some settings. -/
def Config.ofSettings (limits : PrintLimits) (path : Option String)
    (settings : List (String × Value)) : Except ConfigFault Config :=
  let (included, p1) := checkPatterns settings "include" defaultInclude
  let (excluded, p2) := checkPatterns settings "exclude" defaultExclude
  let (outputFormat, p3) := checkChoice OutputFormat.ofName? (OutputFormat.all.map (·.name))
    settings "output_format" "output_format" .text
  let (showSource, p4) := checkBool settings "show_source" true
  if choiceTooDeep limits.outputFormat OutputFormat.ofName? settings "output_format" then
    .error .tooDeep
  else match rulesTable? (lookup "rules" settings) with
    | none => .error .notATable
    | some ruleSettings =>
      let (rules, p5) := checkRules ruleSettings
      if ruleSettings.any (severityTooDeep limits.severity)
          || providerTooDeep limits.provider (lookup "generator" settings) then
        .error .tooDeep
      else match checkGenerator (lookup "generator" settings) with
        | none => .error .overflow
        | some (generator, p6) =>
          let problems := p1 ++ p2 ++ p3 ++ p4 ++ p5 ++ p6
          if problems.isEmpty then
            .ok ⟨path, included, excluded, outputFormat, showSource, rules, generator⟩
          else .error (.invalid problems)

/-- The configuration that a value describes. -/
def Config.ofValue (limits : PrintLimits) (path : Option String) (v : Value) :
    Except ConfigFault Config :=
  match v.table? with
  | none => .error .notATable
  | some settings => Config.ofSettings limits path settings

end PatchLint
