import PatchLint.Text.Basic

/-!
# Documents

A document is a list of lines together with the answer to whether the last one is ended by a
newline. Only `\n` separates lines, so a carriage return stays part of its line and a document with
other line ends keeps them. The empty text has no line at all, and a line added to it is ended.
-/

namespace PatchLint

/-- The lines of a text, and whether the last one is ended. -/
structure Document where
  lines : List Text
  ended : Bool
  deriving DecidableEq, Repr

namespace Document

/-- The document of a text. -/
def ofText (t : Text) : Document :=
  if t.isEmpty then ⟨[], true⟩
  else
    let ps := Text.pieces '\n' t
    if ps.getLast? = some [] then ⟨ps.dropLast, true⟩ else ⟨ps, false⟩

/-- The text of a document. A document without lines is the empty text. -/
def toText (d : Document) : Text :=
  if d.lines.isEmpty then []
  else Text.joinWith ['\n'] d.lines ++ (if d.ended then ['\n'] else [])

/-! ## Entries -/

/-- A line together with whether it is ended. Lines are compared in this form, so the last line
differs from an equal one that has a newline. -/
structure Entry where
  text : Text
  ended : Bool
  deriving DecidableEq, Repr

/-- The entries of a list of lines; all but the last are ended. -/
def entriesOf (ended : Bool) : List Text → List Entry
  | [] => []
  | [l] => [⟨l, ended⟩]
  | l :: m :: rest => ⟨l, true⟩ :: entriesOf ended (m :: rest)

/-- The entries of a document. -/
def entries (d : Document) : List Entry := entriesOf d.ended d.lines

theorem entriesOf_text (ended : Bool) (ls : List Text) :
    (entriesOf ended ls).map Entry.text = ls := by
  fun_induction entriesOf ended ls with
  | case1 => rfl
  | case2 => rfl
  | case3 l m rest ih => simp [ih]

@[simp] theorem map_text_entries (d : Document) : d.entries.map Entry.text = d.lines :=
  entriesOf_text d.ended d.lines

end Document

end PatchLint
