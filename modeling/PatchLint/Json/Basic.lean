import PatchLint.Number.Binary64

/-!
# JSON values

Integers and floating point numbers are kept apart, and an object keeps its members in the order in
which they were first written. A member that is written again keeps its place and takes the new
value (`insertField`).
-/

namespace PatchLint

/-- A JSON value. -/
inductive Json where
  | null
  | bool (b : Bool)
  | int (n : Int)
  | float (x : Binary64)
  | str (s : String)
  | arr (items : List Json)
  | obj (fields : List (String × Json))
  deriving Repr, Inhabited

namespace Json

/-- Sets a member: a new one goes to the end, an old one keeps its place. -/
def insertField {α : Type} (key : String) (value : α) : List (String × α) → List (String × α)
  | [] => [(key, value)]
  | (k, v) :: rest =>
    if k = key then (k, value) :: rest else (k, v) :: insertField key value rest

/-- The member of a list of members. -/
def lookup {α : Type} (key : String) : List (String × α) → Option α
  | [] => none
  | (k, v) :: rest => if k = key then some v else lookup key rest

/-- The member of an object; a value that is no object has none. -/
def get? (key : String) : Json → Option Json
  | .obj fields => lookup key fields
  | _ => none

/-- Whether a value counts as present: not null, false, zero or empty. -/
def isPresent : Json → Bool
  | .null => false
  | .bool b => b
  | .int n => n != 0
  | .float (.finite _ m _) => m != 0
  | .float _ => true
  | .str s => !s.isEmpty
  | .arr items => !items.isEmpty
  | .obj fields => !fields.isEmpty

@[simp] theorem lookup_insertField_self {α : Type} (key : String) (value : α)
    (fields : List (String × α)) : lookup key (insertField key value fields) = some value := by
  induction fields with
  | nil => simp [insertField, lookup]
  | cons f rest ih =>
    unfold insertField
    split
    · next h => simp [lookup, h]
    · next h => simp [lookup, h, ih]

theorem lookup_insertField_ne {α : Type} {key other : String} (h : other ≠ key) (value : α)
    (fields : List (String × α)) :
    lookup other (insertField key value fields) = lookup other fields := by
  induction fields with
  | nil => simp [insertField, lookup, Ne.symm h]
  | cons f rest ih =>
    unfold insertField
    split
    · next hk => simp [lookup, hk, Ne.symm h]
    · simp [lookup, ih]

end Json

end PatchLint
