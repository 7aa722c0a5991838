import PatchLint.Diff.Create
import PatchLint.Rules.Diagnostic
import PatchLint.Text.Utf8

/-!
# Removing an import

The fix for an unused import is a diff of one hunk that deletes the line on which the import starts.
An import over several lines loses only its first one.
-/

namespace PatchLint

/-- The index of the line that holds a byte offset. `start` is the offset of the first line. The
newline belongs to the line it ends. -/
def lineIndexFrom? (start : Nat) (offset : Int) : List Text → Option Nat
  | [] => none
  | l :: ls =>
    let stop := start + (Utf8.encode l).length
    if start ≤ offset ∧ offset ≤ stop then some 0
    else (lineIndexFrom? (stop + 1) offset ls).map (· + 1)

/-- The index of the line that holds a byte offset, if the offset lies in the text. -/
def lineIndex? (lines : List Text) (offset : Int) : Option Nat :=
  if offset < 0 then none else lineIndexFrom? 0 offset lines

/-- The diff that deletes a line. Both counts are written. -/
def removalDiff (number : Nat) (line : Text) : Text :=
  let n := Text.ofNat number
  ["--- ".toList ++ defaultOldName, "+++ ".toList ++ defaultNewName,
    "@@ -".toList ++ n ++ ",1 +".toList ++ n ++ ",0 @@".toList, '-' :: line].flatMap (· ++ ['\n'])

/-- The diff that removes the import a finding is about. -/
def removeImport? (source : Text) (d : Diagnostic) : Option Text :=
  if d.ruleId = Rule.unusedImport.code then
    let lines := Text.pieces '\n' source
    match lineIndex? lines d.start with
    | none => none
    | some index => lines[index]?.map (removalDiff (index + 1))
  else none

/-- The diff that fixes a finding, for the rules that have a fix. -/
def fixFor? (source : Text) (d : Diagnostic) : Option Text :=
  match Rule.ofCode? d.ruleId with
  | some .unusedImport => removeImport? source d
  | _ => none

end PatchLint
