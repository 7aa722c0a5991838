import PatchLint.Json.Basic
import PatchLint.Text.Decimal

/-!
# Configuration values

What a configuration file can hold: the values of JSON, and dates and times, of which only the kind
matters here.

How a value is printed does not matter, but whether it can be: values that are nested too deeply cannot, nor
can numbers with too many digits (`Value.printFault?`).
-/

namespace PatchLint

/-- The kind of a date or time. -/
inductive Moment where
  | date
  | time
  | datetime
  deriving DecidableEq, Repr

/-- A value in a configuration. -/
inductive Value where
  | null
  | bool (b : Bool)
  | int (n : Int)
  | float (x : Binary64)
  | str (s : String)
  | moment (m : Moment)
  | arr (items : List Value)
  | table (fields : List (String × Value))
  deriving Repr, Inhabited

namespace Value

mutual

/-- The configuration value of a JSON value. -/
def ofJson : Json → Value
  | .null => .null
  | .bool b => .bool b
  | .int n => .int n
  | .float x => .float x
  | .str s => .str s
  | .arr items => .arr (ofJsonItems items)
  | .obj fields => .table (ofJsonFields fields)

/-- The configuration values of JSON values. -/
def ofJsonItems : List Json → List Value
  | [] => []
  | v :: rest => ofJson v :: ofJsonItems rest

/-- The configuration values of members. -/
def ofJsonFields : List (String × Json) → List (String × Value)
  | [] => []
  | (k, v) :: rest => (k, ofJson v) :: ofJsonFields rest

end

mutual

/-- The JSON value of a configuration value. Dates and times have none. -/
def toJson? : Value → Option Json
  | .null => some .null
  | .bool b => some (.bool b)
  | .int n => some (.int n)
  | .float x => some (.float x)
  | .str s => some (.str s)
  | .moment _ => none
  | .arr items => (itemsToJson? items).map .arr
  | .table fields => (fieldsToJson? fields).map .obj

/-- The JSON values of some configuration values. -/
def itemsToJson? : List Value → Option (List Json)
  | [] => some []
  | v :: rest =>
    match toJson? v, itemsToJson? rest with
    | some v, some rest => some (v :: rest)
    | _, _ => none

/-- The JSON members of a table. -/
def fieldsToJson? : List (String × Value) → Option (List (String × Json))
  | [] => some []
  | (k, v) :: rest =>
    match toJson? v, fieldsToJson? rest with
    | some v, some rest => some ((k, v) :: rest)
    | _, _ => none

end

/-- The text of a value that is a text. -/
def text? : Value → Option String
  | .str s => some s
  | _ => none

/-- The members of a table. -/
def table? : Value → Option (List (String × Value))
  | .table fields => some fields
  | _ => none

/-- The name of the kind of a value, for messages. -/
def kindName : Value → String
  | .null => "NoneType"
  | .bool _ => "bool"
  | .int _ => "int"
  | .float _ => "float"
  | .str _ => "str"
  | .moment .date => "date"
  | .moment .time => "time"
  | .moment .datetime => "datetime"
  | .arr _ => "list"
  | .table _ => "dict"

/-! ## Printing -/

/-- Why a value cannot be printed. -/
inductive PrintFault where
  /-- It is nested more deeply than calls can be. -/
  | tooDeep
  | overlongNumber
  deriving DecidableEq, Repr

mutual

/-- What goes wrong first if a value is printed within this many others, with calls that can be nested up to
a limit. -/
def printFault? (limit : Option Nat) (levels : Nat) (v : Value) : Option PrintFault :=
  if limit.any (· ≤ levels) then some .tooDeep
  else match v with
    | .int n => if Text.powerOfTen Text.digitLimit ≤ n.natAbs then some .overlongNumber else none
    | .arr items => itemsFault? limit (levels + 1) items
    | .table fields => fieldsFault? limit (levels + 1) fields
    | _ => none

/-- What goes wrong first if some values are printed. -/
def itemsFault? (limit : Option Nat) (levels : Nat) : List Value → Option PrintFault
  | [] => none
  | v :: rest => (printFault? limit levels v).or (itemsFault? limit levels rest)

/-- What goes wrong first if the members of a table are printed. -/
def fieldsFault? (limit : Option Nat) (levels : Nat) : List (String × Value) → Option PrintFault
  | [] => none
  | (_, v) :: rest => (printFault? limit levels v).or (fieldsFault? limit levels rest)

end

/-- Whether a value cannot be printed because it is nested too deeply. -/
def printsTooDeep (limit : Option Nat) (v : Value) : Bool := v.printFault? limit 0 == some .tooDeep

end Value

end PatchLint
