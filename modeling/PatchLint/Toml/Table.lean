import PatchLint.Config.Value
import PatchLint.Toml.Fault

/-!
# TOML tables in the making

The tables of a document while it is read, and what may still be done with them. Some keys are
*frozen*: they hold an array or a table written in one place, and nothing below them can be added.
Some are *declared*: they have had a header, or were opened by a dotted key, and cannot have another
header.
-/

namespace PatchLint.Toml

/-- The members of a table. -/
abbrev Fields := List (String × Value)

/-! ## Reaching into tables -/

/-- Changes the value of a key, or adds the key at the end. -/
def alter? (key : String) (change : Option Value → Option Value) : Fields → Option Fields
  | [] => (change none).map fun v => [(key, v)]
  | (k, v) :: rest =>
    if k = key then (change (some v)).map fun v => (k, v) :: rest
    else (alter? key change rest).map ((k, v) :: ·)

/-- Changes the table a value stands for: a missing one is new, and of a list of tables the last one
counts, if lists may be entered. -/
def enter? (lists : Bool) (change : Fields → Option Fields) : Option Value → Option Value
  | none => (change []).map .table
  | some (.table fields) => (change fields).map .table
  | some (.arr items) =>
    if lists then
      match items.getLast? with
      | some (.table fields) =>
        (change fields).map fun fields => .arr (items.dropLast ++ [.table fields])
      | _ => none
    else none
  | some _ => none

/-- Changes the table under a key, making tables on the way. -/
def changeAt? (lists : Bool) (change : Fields → Option Fields) : List String → Fields → Option Fields
  | [], fields => change fields
  | key :: rest, fields => alter? key (enter? lists (changeAt? lists change rest)) fields

/-- Adds a member that is not there yet. -/
def addNew? (key : String) (value : Value) (fields : Fields) : Option Fields :=
  if fields.any (·.1 == key) then none else some (fields ++ [(key, value)])

/-- Adds an empty table to the list under a key. -/
def appendTable? (key : String) (fields : Fields) : Option Fields :=
  alter? key (fun
    | none => some (.arr [.table []])
    | some (.arr items) => some (.arr (items ++ [.table []]))
    | some _ => none) fields

/-- A key split into the table it lies in and its last part. -/
def splitKey (key : Key) : Key × String := (key.dropLast, key.getLast?.getD "")

/-- Sets the value under a key that is not there yet. -/
def setNew? (lists : Bool) (key : Key) (value : Value) (fields : Fields) : Option Fields :=
  let (table, stem) := splitKey key
  changeAt? lists (addNew? stem value) table fields

/-! ## Marks -/

/-- What is known about keys. -/
structure Marks where
  /-- Keys that hold something written in one place. -/
  frozen : List Key := []
  /-- Keys that cannot have a header any more. -/
  declared : List Key := []
  /-- Keys opened by dotted keys in the current section; they are declared when it ends. -/
  pending : List Key := []

namespace Marks

/-- Whether a key or one above it is frozen. -/
def isFrozen (m : Marks) (key : Key) : Bool := m.frozen.any (·.isPrefixOf key)

/-- Whether a key is declared. -/
def isDeclared (m : Marks) (key : Key) : Bool := m.declared.contains key

/-- Marks a key as frozen. -/
def freeze (m : Marks) (key : Key) : Marks := { m with frozen := key :: m.frozen }

/-- Marks a key as declared. -/
def declare (m : Marks) (key : Key) : Marks := { m with declared := key :: m.declared }

/-- Marks keys as declared from the next section on. -/
def await (m : Marks) (keys : List Key) : Marks := { m with pending := keys ++ m.pending }

/-- Ends a section. -/
def settle (m : Marks) : Marks := { m with declared := m.pending ++ m.declared, pending := [] }

/-- Forgets a key and everything below it. -/
def forget (m : Marks) (key : Key) : Marks :=
  { m with
    frozen := m.frozen.filter (!key.isPrefixOf ·)
    declared := m.declared.filter (!key.isPrefixOf ·) }

end Marks

end PatchLint.Toml
