import BlockScript.Text.Hex
import BlockScript.Text.Printable

/-!
# Quoted texts

Messages show a text between quotes.  The single quote is preferred, the double quote is taken for a text that
holds single quotes only.  Backslashes, the chosen quote and unprintable characters are escaped.
-/

namespace BlockScript.Text

/-- The quote that surrounds a text. -/
def quoteOf (t : Text) : Char :=
  if t.contains '\'' && !t.contains '"' then '"' else '\''

/-- A character as it stands between two quotes `quote`. -/
def escapeIn (quote c : Char) : Text :=
  if c == '\\' || c == quote then ['\\', c]
  else if c == '\n' then ['\\', 'n']
  else if c == '\r' then ['\\', 'r']
  else if c == '\t' then ['\\', 't']
  else if isPrintable c then [c]
  else if c.toNat < 0x100 then '\\' :: 'x' :: hex 2 c.toNat
  else if c.toNat < 0x10000 then '\\' :: 'u' :: hex 4 c.toNat
  else '\\' :: 'U' :: hex 8 c.toNat

/-- The text between quotes. -/
def quoted (t : Text) : Text :=
  t.quoteOf :: t.flatMap (escapeIn t.quoteOf) ++ [t.quoteOf]

end BlockScript.Text
