import PatchLint.Json.Basic
import PatchLint.Number.Numeral
import PatchLint.Text.Quoted

/-!
# Writing JSON

`pretty` writes a value over several lines, two blanks deeper for each level; `compact` writes it on
one line. Both use ASCII only: every other character is escaped by number, as a pair if it needs
more than four digits. `display` is the text of a value inside a message, where `null` and the truth
values have other names and texts inside a list or an object are quoted.
-/

namespace PatchLint.Json

/-! ## Strings -/

/-- The escape of a four-digit code. -/
def codeEscape (n : Nat) : Text := '\\' :: 'u' :: Text.hex 4 n

/-- A character as it stands inside a JSON string. -/
def escapeChar (c : Char) : Text :=
  if c = '"' then ['\\', '"']
  else if c = '\\' then ['\\', '\\']
  else if c = '\n' then ['\\', 'n']
  else if c = '\r' then ['\\', 'r']
  else if c = '\t' then ['\\', 't']
  else if c = '\x0c' then ['\\', 'f']
  else if c = '\x08' then ['\\', 'b']
  else if 0x20 ≤ c.toNat ∧ c.toNat < 0x7F then [c]
  else if c.toNat < 0x10000 then codeEscape c.toNat
  else
    let n := c.toNat - 0x10000
    codeEscape (0xD800 + n / 0x400) ++ codeEscape (0xDC00 + n % 0x400)

/-- A JSON string. -/
def string (s : String) : Text := '"' :: s.toList.flatMap escapeChar ++ ['"']

/-- The truth values of JSON. -/
def boolText (b : Bool) : Text := if b then "true".toList else "false".toList

/-! ## One line -/

mutual

/-- A value on one line. -/
def compact : Json → Text
  | .null => "null".toList
  | .bool b => boolText b
  | .int n => Text.ofInt n
  | .float x => NumeralFormat.json.render x
  | .str s => string s
  | .arr items => '[' :: compactItems items ++ [']']
  | .obj fields => '{' :: compactFields fields ++ ['}']

/-- Items with a comma and a blank between them. -/
def compactItems : List Json → Text
  | [] => []
  | [v] => compact v
  | v :: w :: rest => compact v ++ [',', ' '] ++ compactItems (w :: rest)

/-- Members with a comma and a blank between them. -/
def compactFields : List (String × Json) → Text
  | [] => []
  | [(k, v)] => string k ++ [':', ' '] ++ compact v
  | (k, v) :: w :: rest => string k ++ [':', ' '] ++ compact v ++ [',', ' '] ++ compactFields (w :: rest)

end

/-! ## Several lines -/

/-- A new line that is indented for a level. -/
def newline (level : Nat) : Text := '\n' :: Text.repeated ' ' (2 * level)

mutual

/-- A value whose first line stands at the given level. -/
def pretty (level : Nat) : Json → Text
  | .null => "null".toList
  | .bool b => boolText b
  | .int n => Text.ofInt n
  | .float x => NumeralFormat.json.render x
  | .str s => string s
  | .arr [] => ['[', ']']
  | .arr (v :: rest) =>
    '[' :: newline (level + 1) ++ prettyItems (level + 1) (v :: rest) ++ newline level ++ [']']
  | .obj [] => ['{', '}']
  | .obj (f :: rest) =>
    '{' :: newline (level + 1) ++ prettyFields (level + 1) (f :: rest) ++ newline level ++ ['}']

/-- Items, each on a line of its own. -/
def prettyItems (level : Nat) : List Json → Text
  | [] => []
  | [v] => pretty level v
  | v :: w :: rest => pretty level v ++ ',' :: newline level ++ prettyItems level (w :: rest)

/-- Members, each on a line of its own. -/
def prettyFields (level : Nat) : List (String × Json) → Text
  | [] => []
  | [(k, v)] => string k ++ [':', ' '] ++ pretty level v
  | (k, v) :: w :: rest =>
    string k ++ [':', ' '] ++ pretty level v ++ ',' :: newline level ++ prettyFields level (w :: rest)

end

/-- A value over several lines. -/
def render (v : Json) : String := String.ofList (pretty 0 v)

/-! ## In messages -/

mutual

/-- A value inside a list or an object of a message. -/
def displayInner : Json → Text
  | .null => "None".toList
  | .bool b => if b then "True".toList else "False".toList
  | .int n => Text.ofInt n
  | .float x => NumeralFormat.plain.render x
  | .str s => Text.quoted s.toList
  | .arr items => '[' :: displayItems items ++ [']']
  | .obj fields => '{' :: displayFields fields ++ ['}']

/-- Items of a list in a message. -/
def displayItems : List Json → Text
  | [] => []
  | [v] => displayInner v
  | v :: w :: rest => displayInner v ++ [',', ' '] ++ displayItems (w :: rest)

/-- Members of an object in a message. -/
def displayFields : List (String × Json) → Text
  | [] => []
  | [(k, v)] => Text.quoted k.toList ++ [':', ' '] ++ displayInner v
  | (k, v) :: w :: rest =>
    Text.quoted k.toList ++ [':', ' '] ++ displayInner v ++ [',', ' '] ++ displayFields (w :: rest)

end

/-- The text of a value in a message. A string stands for itself there. -/
def display : Json → String
  | .str s => s
  | v => String.ofList (displayInner v)

end PatchLint.Json
