import PatchLint.Command.Arguments
import PatchLint.Text.Decimal
import PatchLint.Text.Quoted

/-!
# Usage

The commands, how each is used, and what the user is told who uses one wrongly.
-/

namespace PatchLint

/-- The name of the program. -/
def programName : String := "codefixer"

/-- The version of the program. -/
def programVersion : String := "0.1.0"

/-! ## Commands -/

/-- The commands. -/
inductive CommandName where
  | apply
  | config
  | explain
  | fix
  | lint
  deriving DecidableEq, Repr

namespace CommandName

/-- All commands. -/
def all : List CommandName := [.apply, .config, .explain, .fix, .lint]

/-- The word for a command. -/
def name : CommandName → String
  | .apply => "apply"
  | .config => "config"
  | .explain => "explain"
  | .fix => "fix"
  | .lint => "lint"

/-- The command of a word. -/
def ofName? (name : String) : Option CommandName := all.find? (·.name == name)

/-- The operands of a command, as they are written in its usage line. -/
def operands : CommandName → List String
  | .apply => ["FILE", "PATCH"]
  | .config => []
  | .explain => ["[RULE_CODE]"]
  | .fix | .lint => ["[PATHS]..."]

/-- The options of a command. -/
def options : CommandName → List OptionSpec
  | .apply => [⟨"--check", false⟩, ⟨"--edits", false⟩, ⟨"--help", false⟩]
  | .config => [⟨"--validate", false⟩, ⟨"--json", false⟩, ⟨"--help", false⟩]
  | .explain => [⟨"--all", false⟩, ⟨"--help", false⟩]
  | .fix =>
    [⟨"--diff", false⟩, ⟨"--check", false⟩, ⟨"--generator", false⟩, ⟨"--no-generator", false⟩,
     ⟨"--help", false⟩]
  | .lint =>
    [⟨"--format", true⟩, ⟨"--show-source", false⟩, ⟨"--no-show-source", false⟩, ⟨"--help", false⟩]

end CommandName

/-- The options that stand before the command. -/
def commonOptions : List OptionSpec :=
  [⟨"--version", false⟩, ⟨"--config", true⟩, ⟨"--verbose", false⟩, ⟨"--debug", false⟩,
   ⟨"--help", false⟩]

/-- Where a fault lies: before the command, or within it. -/
abbrev UsageScope := Option CommandName

/-- The words that lead to a scope. -/
def UsageScope.path : UsageScope → String
  | none => programName
  | some command => programName ++ " " ++ command.name

/-- The usage line of a scope. -/
def UsageScope.usage (scope : UsageScope) : String :=
  let operands := match scope with
    | none => ["COMMAND", "[ARGS]..."]
    | some command => command.operands
  "Usage: " ++ joinStrings " " (scope.path :: "[OPTIONS]" :: operands)

/-! ## Faults -/

/-- Why an argument cannot be used. -/
inductive ValueFault where
  /-- A path that denotes nothing; it has to denote a file if `file` is set. -/
  | notFound (file : Bool) (path : String)
  | isDirectory (path : String)
  /-- A path to something that may not be read. -/
  | unreadable (file : Bool) (path : String)
  | notAmong (value : String) (choices : List String)
  deriving DecidableEq, Repr

/-- Why a command line cannot be used. -/
inductive UsageFault where
  | arguments (fault : ArgumentFault)
  | missingCommand
  | unknownCommand (name : String) (suggestions : List String)
  | missingOperand (label : String)
  /-- The label tells which option or operand has the value. -/
  | invalidValue (label : String) (fault : ValueFault)
  | extraOperands (operands : List String)
  deriving DecidableEq, Repr

/-- A text between quotes. -/
def quote (s : String) : String := String.ofList (Text.quoted s.toList)

/-- The wording of suggestions, behind a blank. -/
def suggestionText : List String → String
  | [] => ""
  | [name] => " Did you mean " ++ quote name ++ "?"
  | names => " (Did you mean one of: " ++ joinStrings ", " (names.map quote) ++ "?)"

/-- The wording for arguments that cannot be read. -/
def ArgumentFault.message : ArgumentFault → String
  | .unknownOption name suggestions =>
    "No such option " ++ quote name ++ "." ++ suggestionText suggestions
  | .missingValue name => "Option " ++ quote name ++ " requires an argument."
  | .unexpectedValue name => "Option " ++ quote name ++ " does not take a value."

/-- What a path is called that has to denote a file, or anything. -/
def pathKind (file : Bool) : String := if file then "File " else "Path "

/-- The wording for an argument that cannot be used. -/
def ValueFault.message : ValueFault → String
  | .notFound file path => pathKind file ++ quote path ++ " does not exist."
  | .isDirectory path => "File " ++ quote path ++ " is a directory."
  | .unreadable file path => pathKind file ++ quote path ++ " is not readable."
  | .notAmong value choices =>
    quote value ++ " is not one of " ++ joinStrings ", " (choices.map quote) ++ "."

/-- The wording for a command line that cannot be used. -/
def UsageFault.message : UsageFault → String
  | .arguments fault => fault.message
  | .missingCommand => "Missing command."
  | .unknownCommand name suggestions =>
    "No such command " ++ quote name ++ "." ++ suggestionText suggestions
  | .missingOperand label => "Missing argument '" ++ label ++ "'."
  | .invalidValue label fault => "Invalid value for '" ++ label ++ "': " ++ fault.message
  | .extraOperands operands =>
    "Got unexpected extra argument" ++ (if operands.length = 1 then "" else "s") ++ " ("
      ++ joinStrings " " operands ++ ")"

/-- What is printed about a fault: the usage, where to find help, and the fault. -/
def UsageFault.report (fault : UsageFault) (scope : UsageScope) : String :=
  scope.usage ++ "\nTry '" ++ scope.path ++ " --help' for help.\n\nError: " ++ fault.message ++ "\n"

end PatchLint
