import PatchLint.Rules.Basic
import PatchLint.Text.Blank
import PatchLint.Text.Newline

/-!
# Rule documentation

What the user is told about each rule, in full and as a table.
-/

namespace PatchLint

/-- The documentation of a rule. -/
structure RuleInfo where
  code : String
  name : String
  category : String := ""
  description : String := ""
  badExample : String := ""
  goodExample : String := ""
  hasAutofix : Bool
  fixDescription : String := ""
  configOptions : String := ""
  deriving DecidableEq, Repr

/-- The documentation of the four rules. -/
def Rule.info : Rule → RuleInfo
  | .unusedImport =>
    { code := "R1"
      name := "Unused Import"
      category := "imports"
      description := "A name bound by an import statement is never referenced.\nType-only references in TypeScript count as uses.\nThe whole import statement is reported, once per unused name."
      badExample := "import \x7b readFile \x7d from 'fs';\nconsole.log(1);"
      goodExample := "console.log(1);"
      hasAutofix := true
      fixDescription := "Deletes the line holding the import statement." }
  | .missingImport =>
    { code := "R2"
      name := "Missing Import"
      category := "imports"
      description := "An identifier is referenced but never declared, imported,\nor known as a runtime global. Each reference is reported\nat its own position."
      badExample := "const x = lodash.map(items, f);"
      goodExample := "import lodash from 'lodash';\nconst x = lodash.map(items, f);"
      hasAutofix := false
      configOptions := "[tool.codefixer.rules.R2]\nglobals = [\"describe\", \"it\"]  # Extra names treated as defined" }
  | .nullAccess =>
    { code := "R3"
      name := "Possible Null/Undefined Access"
      category := "safety"
      description := "A property is read from an identifier that has not been\ndeclared earlier in the file. Optional chaining (a?.b)\nis never reported; console and process are always allowed."
      badExample := "const n = user.name;"
      goodExample := "const n = user?.name;"
      hasAutofix := false
      configOptions := "[tool.codefixer.rules.R3]\nallow = [\"window\", \"document\"]  # Bases that are never null" }
  | .missingAwait =>
    { code := "R4"
      name := "Missing Await"
      category := "async"
      description := "A .then() call inside an async function is not awaited.\nOnly the nearest enclosing function decides whether the\ncall is in an async context."
      badExample := "async function f() \x7b\n  fetch(u).then(r => r.json());\n\x7d"
      goodExample := "async function f() \x7b\n  await fetch(u).then(r => r.json());\n\x7d"
      hasAutofix := false }

/-- The catalog of all rules. -/
def ruleCatalog : List RuleInfo := Rule.all.map Rule.info

/-- The lines of a text, each behind an indent. -/
def indented (indent text : String) : List String :=
  (Text.lines text.toList).map fun l => indent ++ String.ofList l

/-- The full documentation of a rule. -/
def RuleInfo.detail (info : RuleInfo) (defaultSeverity : String) : String :=
  joinStrings "\n" (
    [info.code ++ ": " ++ info.name,
     "Category: " ++ info.category ++ " | Default severity: " ++ defaultSeverity ++ " | Autofix: "
       ++ (if info.hasAutofix then "Yes" else "No"),
     ""]
    ++ indented "  " info.description
    ++ ["", "  Bad:"] ++ indented "      " info.badExample
    ++ ["  Good:"] ++ indented "      " info.goodExample
    ++ (if info.fixDescription.isEmpty then [] else ["", "  Fix: " ++ info.fixDescription])
    ++ (if info.configOptions.isEmpty then []
        else ["", "  Config:"] ++ indented "      " info.configOptions)
    ++ ["", "  Disable: [tool.codefixer.rules] " ++ info.code ++ " = \"off\""])

/-- A text with blanks behind it up to a width. -/
def padded (width : Nat) (s : String) : String :=
  s ++ String.ofList (Text.repeated ' ' (width - s.toList.length))

/-- A row of the table, without blanks at its end. -/
def tableRow (width : Nat) (code severity name fix : String) : String :=
  let row := padded 5 code ++ " " ++ padded 8 severity ++ " " ++ padded width name ++ " " ++ fix
  String.ofList (Text.trimEnd Text.isBlank row.toList)

/-- The table of some rules by code: code, severity, name and whether there is a fix. There has to be
a rule. -/
def ruleTable? (catalog : List RuleInfo) (severity : String → String) : Option String :=
  match (catalog.map (·.name.toList.length)).max? with
  | none => none
  | some width =>
    let rows := catalog.mergeSort fun a b => decide (a.code ≤ b.code)
    some <| joinStrings "\n" <|
      tableRow width "CODE" "SEVERITY" "NAME" "FIX" ::
        rows.map fun info =>
          tableRow width info.code (severity info.code) info.name
            (if info.hasAutofix then "yes" else "-")

end PatchLint
