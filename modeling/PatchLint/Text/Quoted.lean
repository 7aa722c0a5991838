import PatchLint.Text.Decimal
import PatchLint.Text.Printable

/-!
# Quoted text

The form in which a text is shown inside a message: between quotes, with a backslash in front of
the quote and of the backslash, short escapes for tab, line feed and carriage return, and numeric
escapes for everything that cannot be printed. Single quotes are used unless the text holds a
single quote and no double quote.
-/

namespace PatchLint.Text

/-- The escape of a character by its number: two, four or eight hexadecimal digits. -/
def numericEscape (c : Char) : Text :=
  let n := c.toNat
  if n < 0x100 then '\\' :: 'x' :: hex 2 n
  else if n < 0x10000 then '\\' :: 'u' :: hex 4 n
  else '\\' :: 'U' :: hex 8 n

/-- A character as it stands between the quotes. -/
def quotedChar (quote c : Char) : Text :=
  if c = quote ∨ c = '\\' then ['\\', c]
  else if c = '\t' then ['\\', 't']
  else if c = '\n' then ['\\', 'n']
  else if c = '\r' then ['\\', 'r']
  else if isPrintable c then [c]
  else numericEscape c

/-- The quote that stands around a text. -/
def quoteFor (t : Text) : Char :=
  if t.any (· = '\'') && !t.any (· = '"') then '"' else '\''

/-- A text between quotes. -/
def quoted (t : Text) : Text :=
  let quote := quoteFor t
  quote :: t.flatMap (quotedChar quote) ++ [quote]

end PatchLint.Text
