import PatchLint.Toml.Scalars
import PatchLint.Toml.Strings
import PatchLint.Toml.Table

/-!
# Reading TOML

A document is a sequence of statements on lines of their own: key and value, the header of a table,
or the header of one more table of a list. The reader gives the table of the whole document, or the
first fault if the text is no TOML document.

## Termination

Each call of the mutual functions on values passes a character or is followed by one that does, so
two units of fuel per character, and two more, are enough. Statements pass a character each.
-/

namespace PatchLint.Toml

/-! ## Comments -/

/-- The input from the end of the line on, behind an optional comment. -/
def skipComment (t : Text) : Except Fault Text :=
  match t with
  | '#' :: cs =>
    (refuse isControl (cs.takeWhile (· ≠ '\n')) cs).map fun _ => cs.dropWhile (· ≠ '\n')
  | _ => .ok t

/-- The input behind space and comments, where both may follow each other. -/
def skipAll : Nat → Text → Except Fault Text
  | 0, t => .ok t
  | fuel + 1, t =>
    match skipSpace t with
    | '#' :: cs => (skipComment ('#' :: cs)).bind (skipAll fuel)
    | rest => .ok rest

/-- The input behind space and comments. -/
def skipLines (t : Text) : Except Fault Text := skipAll (t.length + 1) t

/-! ## Values -/

/-- A value that is neither a string nor made of other values. -/
def plainValue (t : Text) : Reading Value :=
  if "true".toList.isPrefixOf t then .ok (.bool true, t.drop 4)
  else if "false".toList.isPrefixOf t then .ok (.bool false, t.drop 5)
  else match moment? t with
    | some (some found) => .ok found
    | some none => fail .invalidDate t
    | none =>
      match number? t with
      | some found => .ok found
      | none => fail .invalidValue t

/-- Whether a value cannot be added to from outside. -/
def isClosed : Value → Bool
  | .arr _ | .table _ => true
  | _ => false

/-- Adds a member to an inline table; `t` is the input behind it. -/
def addMember (fields : Fields) (frozen : List Key) (key : Key) (v : Value) (t : Text) :
    Except Fault Fields :=
  if frozen.any (·.isPrefixOf key) then fail (.immutable key) t
  else
    match changeAt? false some key.dropLast fields, setNew? false key v fields with
    | _, some fields => .ok fields
    | some _, none => fail (.duplicateMember (splitKey key).2) t
    | none, none => fail .overwritten t

mutual

/-- A value. -/
def value : Nat → Text → Reading Value
  | 0, t => fail .invalidValue t
  | fuel + 1, t =>
    match t with
    | [] => fail .invalidValue t
    | c :: cs =>
      if c = '"' ∨ c = '\'' then (string t).map fun (s, rest) => (.str (String.ofList s), rest)
      else if c = '[' then
        match skipLines cs with
        | .error fault => .error fault
        | .ok (']' :: rest) => .ok (.arr [], rest)
        | .ok rest => items fuel [] rest
      else if c = '{' then
        match skipBlanks cs with
        | '}' :: rest => .ok (.table [], rest)
        | rest => inlineFields fuel [] [] rest
      else plainValue t

/-- The items of an array from one of them on. `seen` holds those before it, in reverse. -/
def items : Nat → List Value → Text → Reading Value
  | 0, _, t => fail .unclosedArray t
  | fuel + 1, seen, t =>
    match value fuel t with
    | .error fault => .error fault
    | .ok (v, rest) =>
      match skipLines rest with
      | .error fault => .error fault
      | .ok (']' :: rest) => .ok (.arr (v :: seen).reverse, rest)
      | .ok (',' :: rest) =>
        match skipLines rest with
        | .error fault => .error fault
        | .ok (']' :: rest) => .ok (.arr (v :: seen).reverse, rest)
        | .ok rest => items fuel (v :: seen) rest
      | .ok rest => fail .unclosedArray rest

/-- A key and its value. -/
def keyValue : Nat → Text → Reading (Key × Value)
  | 0, t => fail .invalidValue t
  | fuel + 1, t =>
    match key t with
    | .error fault => .error fault
    | .ok (key, '=' :: rest) =>
      (value fuel (skipBlanks rest)).map fun (v, rest) => ((key, v), rest)
    | .ok (_, rest) => fail .missingEquals rest

/-- The members of an inline table from one of them on. `frozen` holds the keys nothing can be added
below. -/
def inlineFields : Nat → Fields → List Key → Text → Reading Value
  | 0, _, _, t => fail .unclosedInlineTable t
  | fuel + 1, fields, frozen, t =>
    match keyValue fuel t with
    | .error fault => .error fault
    | .ok ((key, v), rest) =>
      match addMember fields frozen key v rest with
      | .error fault => .error fault
      | .ok fields =>
        match skipBlanks rest with
        | '}' :: rest => .ok (.table fields, rest)
        | ',' :: rest =>
          inlineFields fuel fields (if isClosed v then key :: frozen else frozen) (skipBlanks rest)
        | rest => fail .unclosedInlineTable rest

end

/-! ## Statements -/

/-- A document in the making: its tables, the marks on its keys, and the section it is in. -/
structure Draft where
  fields : Fields := []
  marks : Marks := {}
  header : Key := []

/-- The keys of the tables that a dotted key opens. -/
def openedTables (header key : Key) : List Key :=
  (List.range (key.length - 1)).map fun n => header ++ key.take (n + 1)

/-- The document with other fields, unless a value would be overwritten. -/
def orOverwritten (t : Text) (fields : Option Fields) (draft : Fields → Draft) :
    Except Fault Draft :=
  match fields with
  | some fields => .ok (draft fields)
  | none => fail .overwritten t

/-- Adds a key and its value to the current section; `t` is the input behind them. -/
def Draft.assign (d : Draft) (key : Key) (v : Value) (t : Text) : Except Fault Draft :=
  let opened := openedTables d.header key
  let parent := d.header ++ key.dropLast
  match opened.find? d.marks.isDeclared with
  | some table => fail (.redefined table) t
  | none =>
    if d.marks.isFrozen parent then fail (.immutable parent) t
    else
      let marks := d.marks.await opened
      let marks := if isClosed v then marks.freeze (d.header ++ key) else marks
      orOverwritten t (setNew? true (d.header ++ key) v d.fields) fun fields =>
        { d with fields, marks }

/-- Starts the section of a table; `t` is the input behind its key. -/
def Draft.openTable (d : Draft) (key : Key) (t : Text) : Except Fault Draft :=
  let marks := d.marks.settle
  if marks.isDeclared key || marks.isFrozen key then fail (.declaredTwice key) t
  else orOverwritten t (changeAt? true some key d.fields) fun fields =>
    ⟨fields, marks.declare key, key⟩

/-- Starts the section of one more table of a list; `t` is the input behind its key. -/
def Draft.openItem (d : Draft) (key : Key) (t : Text) : Except Fault Draft :=
  let marks := d.marks.settle
  if marks.isFrozen key then fail (.immutable key) t
  else
    let (table, stem) := splitKey key
    orOverwritten t (changeAt? true (appendTable? stem) table d.fields) fun fields =>
      ⟨fields, (marks.forget key).declare key, key⟩

/-- Whether a statement that is a key and a value can start with a character. -/
def startsKey (c : Char) : Bool := isBareKeyChar c || c = '"' || c = '\''

/-- A statement that is not empty, and the rest of its line. -/
def statement (d : Draft) (t : Text) : Except Fault (Draft × Text) :=
  match t with
  | '[' :: '[' :: cs => do
    let (key, rest) ← key (skipBlanks cs)
    let d ← d.openItem key rest
    match rest with
    | ']' :: ']' :: rest => .ok (d, rest)
    | rest => fail .unclosedListHeader rest
  | '[' :: cs => do
    let (key, rest) ← key (skipBlanks cs)
    let d ← d.openTable key rest
    match rest with
    | ']' :: rest => .ok (d, rest)
    | rest => fail .unclosedHeader rest
  | '#' :: _ => .ok (d, t)
  | [] => .ok (d, t)
  | c :: _ =>
    if startsKey c then do
      let ((key, v), rest) ← keyValue (2 * t.length + 3) t
      let d ← d.assign key v rest
      .ok (d, rest)
    else fail .invalidStatement t

/-- Reads statements to the end of the input. -/
def documentFrom : Nat → Draft → Text → Except Fault Fields
  | 0, _, t => fail .invalidStatement t
  | fuel + 1, d, t =>
    match skipBlanks t with
    | [] => .ok d.fields
    | '\n' :: rest => documentFrom fuel d rest
    | t =>
      match statement d t with
      | .error fault => .error fault
      | .ok (d, rest) =>
        match skipComment (skipBlanks rest) with
        | .error fault => .error fault
        | .ok [] => .ok d.fields
        | .ok ('\n' :: rest) => documentFrom fuel d rest
        | .ok rest => fail .unfinishedLine rest

/-- A carriage return in front of a newline is part of the line end. -/
def joinLineEnds : Text → Text
  | [] => []
  | '\r' :: '\n' :: cs => '\n' :: joinLineEnds cs
  | c :: cs => c :: joinLineEnds cs

/-- The table of a document, or what is wrong with it in words. -/
def parse (t : Text) : Except String Fields :=
  let t := joinLineEnds t
  match documentFrom (t.length + 1) {} t with
  | .error fault => .error (fault.message t)
  | .ok fields => .ok fields

end PatchLint.Toml
