/-!
# Text

A text is a list of characters. Everything that cuts, joins or trims text works on this type, and
a `String` is converted only where it enters or leaves.

* `pieces` cuts at every occurrence of a separator, so `n` separators give `n + 1` pieces;
* `joinWith` is its inverse, proved in `joinWith_pieces`;
* `trim` removes a class of characters at both ends.
-/

namespace PatchLint

/-- A text, character by character. -/
abbrev Text := List Char

namespace Text

/-! ## Cutting and joining -/

/-- Puts one more character in front of the first piece. -/
def extendFirst (c : Char) : List Text → List Text
  | [] => [[c]]
  | p :: ps => (c :: p) :: ps

/-- The pieces between the occurrences of `sep`. There is always at least one piece. -/
def pieces (sep : Char) : Text → List Text
  | [] => [[]]
  | c :: cs => if c = sep then [] :: pieces sep cs else extendFirst c (pieces sep cs)

/-- The pieces with `sep` between neighbours. -/
def joinWith (sep : Text) : List Text → Text
  | [] => []
  | [p] => p
  | p :: q :: ps => p ++ sep ++ joinWith sep (q :: ps)

theorem extendFirst_ne_nil (c : Char) (ps : List Text) : extendFirst c ps ≠ [] := by
  cases ps <;> simp [extendFirst]

theorem pieces_ne_nil (sep : Char) (t : Text) : pieces sep t ≠ [] := by
  cases t with
  | nil => simp [pieces]
  | cons c cs =>
    unfold pieces
    split
    · simp
    · exact extendFirst_ne_nil c _

theorem joinWith_extendFirst (sep : Text) (c : Char) {ps : List Text} (h : ps ≠ []) :
    joinWith sep (extendFirst c ps) = c :: joinWith sep ps := by
  match ps, h with
  | [p], _ => rfl
  | p :: q :: ps, _ => rfl

/-- Joining the pieces gives the text back. -/
theorem joinWith_pieces (sep : Char) (t : Text) : joinWith [sep] (pieces sep t) = t := by
  induction t with
  | nil => rfl
  | cons c cs ih =>
    unfold pieces
    split
    · next h =>
      obtain ⟨p, ps, hp⟩ := List.exists_cons_of_ne_nil (pieces_ne_nil sep cs)
      rw [hp] at ih ⊢
      simp [joinWith, ih, h]
    · rw [joinWith_extendFirst _ _ (pieces_ne_nil sep cs), ih]

/-! ## Trimming -/

/-- The text without its leading characters of the class. -/
def trimStart (p : Char → Bool) (t : Text) : Text := t.dropWhile p

/-- The text without its trailing characters of the class. -/
def trimEnd (p : Char → Bool) (t : Text) : Text := (t.reverse.dropWhile p).reverse

/-- The text without the characters of the class at either end. -/
def trim (p : Char → Bool) (t : Text) : Text := trimEnd p (trimStart p t)

/-! ## Searching -/

/-- Whether `needle` stands at the front of the text. -/
def startsWith (t needle : Text) : Bool := needle.isPrefixOf t

/-- Whether `needle` stands at the end of the text. -/
def endsWith (t needle : Text) : Bool := needle.isSuffixOf t

/-- The text in front of the first occurrence of `needle` and the text after it. -/
def splitFirst? (needle : Text) : Text → Option (Text × Text)
  | [] => if needle.isEmpty then some ([], []) else none
  | c :: cs =>
    if needle.isPrefixOf (c :: cs) then some ([], (c :: cs).drop needle.length)
    else (splitFirst? needle cs).map fun (before, after) => (c :: before, after)

/-- Whether `needle` occurs anywhere in the text. -/
def includes (t needle : Text) : Bool := (splitFirst? needle t).isSome

/-- `n` copies of a character. -/
def repeated (c : Char) (n : Nat) : Text := List.replicate n c

end Text

/-! ## Joining strings -/

/-- The strings with `sep` between neighbours. -/
def joinStrings (sep : String) (parts : List String) : String :=
  String.ofList (Text.joinWith sep.toList (parts.map String.toList))

end PatchLint
