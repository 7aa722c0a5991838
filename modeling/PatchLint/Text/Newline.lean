import PatchLint.Text.Basic

/-!
# Line ends

Files are read with every line end turned into a newline (`normalize`). Documentation texts are cut
into lines at every line boundary character (`lines`); there a final boundary ends the last line and
does not open another one.
-/

namespace PatchLint.Text

/-- Every `\r\n` and every lone `\r` becomes `\n`. -/
def normalize : Text → Text
  | [] => []
  | '\r' :: '\n' :: cs => '\n' :: normalize cs
  | c :: cs => (if c = '\r' then '\n' else c) :: normalize cs

/-- The characters that end a line. -/
def isLineBoundary (c : Char) : Bool :=
  [0x0A, 0x0B, 0x0C, 0x0D, 0x1C, 0x1D, 0x1E, 0x85, 0x2028, 0x2029].contains c.toNat

/-- Cuts a text into lines. `current` holds the line being read, last character first. -/
def linesFrom (current : Text) : Text → List Text
  | [] => if current.isEmpty then [] else [current.reverse]
  | '\r' :: '\n' :: cs => current.reverse :: linesFrom [] cs
  | c :: cs => if isLineBoundary c then current.reverse :: linesFrom [] cs else linesFrom (c :: current) cs

/-- The lines of a text, without their ends; `\r\n` is one end. -/
def lines (t : Text) : List Text := linesFrom [] t

/-- A normalized text holds no carriage return. -/
theorem not_mem_normalize (t : Text) : '\r' ∉ normalize t := by
  fun_induction normalize t with
  | case1 => simp
  | case2 cs ih => simp [ih]
  | case3 c cs _ ih =>
    simp only [List.mem_cons, not_or]
    refine ⟨?_, ih⟩
    split
    · decide
    · next h => exact fun hc => h hc.symm

end PatchLint.Text
