import PatchLint.Toml.Fault

/-!
# TOML strings and keys

Four kinds of strings: basic and literal ones, each on one line or over several. Escapes work in
basic strings only. A key is a sequence of parts with dots between them; a part is bare or a string
on one line.

Every reader takes the input and gives what it has read with the input that is left, or a fault.

## Termination

`basicFrom` passes at least one character in each step; `keyFrom` uses one unit of fuel per part,
and there are no more parts than characters.
-/

namespace PatchLint.Toml

/-! ## Characters -/

/-- Blanks within a line. -/
def isBlank (c : Char) : Bool := c = ' ' || c = '\t'

/-- Blanks and newlines. -/
def isSpace (c : Char) : Bool := isBlank c || c = '\n'

/-- The input without leading blanks. -/
def skipBlanks (t : Text) : Text := t.dropWhile isBlank

/-- The input without leading blanks and newlines. -/
def skipSpace (t : Text) : Text := t.dropWhile isSpace

/-- Control characters, which may stand neither in strings nor in comments. The tab is none. -/
def isControl (c : Char) : Bool := (c.toNat < 0x20 && c ≠ '\t') || c.toNat = 0x7F

/-- Control characters that may not stand in a string over several lines. -/
def isMultilineControl (c : Char) : Bool := isControl c && c ≠ '\n'

/-- Characters of bare keys. -/
def isBareKeyChar (c : Char) : Bool :=
  ('a' ≤ c && c ≤ 'z') || ('A' ≤ c && c ≤ 'Z') || ('0' ≤ c && c ≤ '9') || c = '-' || c = '_'

/-! ## Literal strings -/

/-- Refuses a text in front of what is left if it has a refused character; `t` is the input from the
text on. -/
def refuse (refused : Char → Bool) (body t : Text) : Except Fault Unit :=
  match body.find? refused with
  | some c => fail (.invalidCharacter c) (t.dropWhile (!refused ·))
  | none => .ok ()

/-- Everything up to `mark`, if no character on the way is refused. -/
def upTo (mark : Text) (refused : Char → Bool) (t : Text) : Reading Text :=
  match Text.splitFirst? mark t with
  | none => fail (.missing mark) []
  | some (body, rest) => (refuse refused body t).map fun _ => (body, rest)

/-- A literal string on one line, after its opening quote. -/
def literal (t : Text) : Reading Text := upTo ['\''] isControl t

/-! ## Escapes -/

/-- The number of `count` hexadecimal digits. -/
def hexNumber? (count : Nat) (t : Text) : Option Nat :=
  if t.length < count then none
  else (t.take count).foldl
    (fun n c => match n, Text.hexValue? c with
      | some n, some d => some (16 * n + d)
      | _, _ => none) (some 0)

/-- The character of a number. Halves of pairs and numbers past the last character are none. -/
def scalar? (n : Nat) : Option Char :=
  if n < 0xD800 ∨ (0xE000 ≤ n ∧ n < 0x110000) then some (Char.ofNat n) else none

/-- The character that `count` hexadecimal digits give. -/
def hexChar (count : Nat) (t : Text) : Except Fault Char :=
  match hexNumber? count t with
  | none => fail .invalidHex t
  | some n =>
    match scalar? n with
    | none => fail .notAScalar (t.drop count)
    | some c => .ok c

/-- The characters that are escaped by one letter. -/
def letterEscape? (c : Char) : Option Char :=
  if c = 'b' then some '\x08'
  else if c = 't' then some '\t'
  else if c = 'n' then some '\n'
  else if c = 'f' then some '\x0c'
  else if c = 'r' then some '\r'
  else if c = '"' ∨ c = '\\' then some c
  else none

/-- A line end behind a backslash swallows all space that follows; only blanks may stand between the
two. `t` is the input after the backslash, which starts with a blank or a newline. Gives how much of
it is swallowed. -/
def foldedLine (t : Text) : Except Fault Nat :=
  let rest := skipBlanks t
  match rest with
  | [] => .ok t.length
  | c :: _ => if c = '\n' then .ok (t.length - (skipSpace rest).length) else fail .loneBackslash rest

/-- An escape, after its backslash: the text it stands for and how much of the input it takes. -/
def escape (multiline : Bool) (t : Text) : Except Fault (Text × Nat) :=
  match t with
  | [] => fail .loneBackslash []
  | c :: cs =>
    if multiline && isSpace c then (foldedLine t).map ([], ·)
    else if c = 'u' then (hexChar 4 cs).map ([·], 5)
    else if c = 'U' then (hexChar 8 cs).map ([·], 9)
    else match letterEscape? c with
      | some d => .ok ([d], 1)
      | none => fail .loneBackslash cs

/-! ## Basic strings -/

/-- The rest of a basic string. `seen` holds the characters read so far, in reverse. -/
def basicFrom (multiline : Bool) (seen : Text) : Text → Reading Text
  | [] => fail .unterminatedString []
  | c :: cs =>
    if c = '"' ∧ ¬multiline then .ok (seen.reverse, cs)
    else if c = '"' ∧ "\"\"".toList.isPrefixOf cs then .ok (seen.reverse, cs.drop 2)
    else if c = '"' then basicFrom multiline (c :: seen) cs
    else if c = '\\' then
      match escape multiline cs with
      | .error fault => .error fault
      | .ok (text, n) => basicFrom multiline (text.reverse ++ seen) (cs.drop n)
    else if (if multiline then isMultilineControl c else isControl c) then
      fail (.illegalCharacter c) (c :: cs)
    else basicFrom multiline (c :: seen) cs
termination_by t => t.length
decreasing_by all_goals simp only [List.length_drop, List.length_cons]; omega

/-! ## Strings over several lines -/

/-- Up to two quotes right behind the end belong to the string. -/
def extraQuotes (quote : Char) (body rest : Text) : Text × Text :=
  let extra := (rest.take 2).takeWhile (· = quote)
  (body ++ extra, rest.drop extra.length)

/-- The input without a newline right at its start. -/
def dropNewline (t : Text) : Text :=
  match t with
  | '\n' :: cs => cs
  | cs => cs

/-- A string over several lines, after its opening quotes. -/
def multiline (quote : Char) (t : Text) : Reading Text :=
  let t := dropNewline t
  let body := if quote = '"' then basicFrom true [] t
    else upTo [quote, quote, quote] isMultilineControl t
  body.map fun (body, rest) => extraQuotes quote body rest

/-- A string of any kind; the input starts with the quote. -/
def string (t : Text) : Reading Text :=
  match t with
  | '"' :: cs =>
    if "\"\"".toList.isPrefixOf cs then multiline '"' (cs.drop 2) else basicFrom false [] cs
  | '\'' :: cs =>
    if ['\'', '\''].isPrefixOf cs then multiline '\'' (cs.drop 2) else literal cs
  | _ => fail .invalidValue t

/-! ## Keys -/

/-- A part of a key. -/
def keyPart (t : Text) : Reading String :=
  match t with
  | [] => fail .invalidKeyPart t
  | c :: cs =>
    if isBareKeyChar c then
      .ok (String.ofList (t.takeWhile isBareKeyChar), t.dropWhile isBareKeyChar)
    else if c = '\'' then (literal cs).map fun (s, rest) => (String.ofList s, rest)
    else if c = '"' then (basicFrom false [] cs).map fun (s, rest) => (String.ofList s, rest)
    else fail .invalidKeyPart t

/-- The parts of a key, with blanks around the dots and behind the last part. -/
def keyFrom : Nat → Text → Reading Key
  | 0, t => fail .invalidKeyPart t
  | fuel + 1, t =>
    match keyPart t with
    | .error fault => .error fault
    | .ok (part, rest) =>
      match skipBlanks rest with
      | '.' :: rest => (keyFrom fuel (skipBlanks rest)).map fun (parts, rest) => (part :: parts, rest)
      | rest => .ok ([part], rest)

/-- A key. -/
def key (t : Text) : Reading Key := keyFrom (t.length + 1) t

end PatchLint.Toml
