import PatchLint.Diff.Similarity

/-!
# Arguments

Reads a list of arguments against the options that a command has. An option starts with a dash; its
value, if it takes one, is the next argument or stands behind an equals sign. Two dashes alone end the
options. What is no option is an operand; options may follow operands only if the command says so.

Faults are found from left to right, and the first one counts.
-/

namespace PatchLint

/-- An option of a command. -/
structure OptionSpec where
  name : String
  takesValue : Bool := false
  deriving DecidableEq, Repr

/-- Why arguments cannot be read. -/
inductive ArgumentFault where
  | unknownOption (name : String) (suggestions : List String)
  | missingValue (name : String)
  | unexpectedValue (name : String)
  deriving DecidableEq, Repr

/-- Arguments that have been read: the options in their order, each with its value if it takes one, and
the operands. -/
structure Arguments where
  options : List (String × Option String) := []
  operands : List String := []
  deriving DecidableEq, Repr

namespace Arguments

/-- Puts an option in front. -/
def addOption (a : Arguments) (name : String) (value : Option String) : Arguments :=
  { a with options := (name, value) :: a.options }

/-- Puts an operand in front. -/
def addOperand (a : Arguments) (operand : String) : Arguments :=
  { a with operands := operand :: a.operands }

/-- Whether an option is given. -/
def has (a : Arguments) (name : String) : Bool := a.options.any (·.1 == name)

/-- The last value of an option. -/
def value? (a : Arguments) (name : String) : Option String :=
  (a.options.filterMap fun (n, v) => if n = name then v else none).getLast?

/-- Which of two opposite options is given last, if one of them is. -/
def switch? (a : Arguments) (on off : String) : Option Bool :=
  (a.options.filterMap fun (n, _) =>
    if n = on then some true else if n = off then some false else none).getLast?

end Arguments

/-- Whether an argument is written like an option. -/
def looksLikeOption (arg : String) : Bool :=
  match arg.toList with
  | '-' :: _ :: _ => true
  | _ => false

/-- The name in an argument, and the value behind the first equals sign. -/
def splitAtEquals (arg : String) : String × Option String :=
  let cs := arg.toList
  let name := String.ofList (cs.takeWhile (· ≠ '='))
  match cs.dropWhile (· ≠ '=') with
  | [] => (name, none)
  | _ :: value => (name, some (String.ofList value))

/-- The fault of an option that a command does not have. Behind a single dash every character is an
option of its own. -/
def unknownOption (specs : List OptionSpec) (arg name : String) : ArgumentFault :=
  if Text.startsWith arg.toList "--".toList then
    .unknownOption name (closeNames name (specs.map (·.name)))
  else .unknownOption (String.ofList (arg.toList.take 2)) []

/-- Reads arguments. -/
def readArguments (specs : List OptionSpec) (mixed : Bool) :
    List String → Except ArgumentFault Arguments
  | [] => .ok {}
  | arg :: rest =>
    if arg = "--" then .ok { operands := rest }
    else if looksLikeOption arg then
      let (name, attached) := splitAtEquals arg
      match specs.find? (·.name == name) with
      | none => .error (unknownOption specs arg name)
      | some spec =>
        if spec.takesValue then
          match attached, rest with
          | some value, rest => (readArguments specs mixed rest).map (·.addOption name (some value))
          | none, value :: rest =>
            (readArguments specs mixed rest).map (·.addOption name (some value))
          | none, [] => .error (.missingValue name)
        else if attached.isSome then .error (.unexpectedValue name)
        else (readArguments specs mixed rest).map (·.addOption name none)
    else if mixed then (readArguments specs mixed rest).map (·.addOperand arg)
    else .ok { operands := arg :: rest }
termination_by args => args.length

end PatchLint
