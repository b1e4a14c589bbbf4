import ApiBindings.Text.Hexadecimal
import ApiBindings.Text.Printable

/-!
# Quoted text

A text inside a list or a mapping is shown in quotes: in single quotes, or in double quotes when it
holds a single quote and no double one. The quote in use and the backslash are escaped, line breaks
and tabs have letters, and a character that is not printable is shown by its code point.
-/

namespace ApiBindings.Text

/-- The quote that needs the fewest escapes, a single quote when both would do. -/
def quoteFor (cs : List Char) : Char :=
  if cs.contains '\'' && !cs.contains '"' then '"' else '\''

/-- One character of a text in the given quotes. -/
def quoteChar (quote c : Char) : List Char :=
  if c == quote || c == '\\' then ['\\', c]
  else if c == '\n' then ['\\', 'n']
  else if c == '\r' then ['\\', 'r']
  else if c == '\t' then ['\\', 't']
  else if isPrintable c then [c]
  else if c.toNat < 0x100 then '\\' :: 'x' :: hexDigits 2 c.toNat
  else if c.toNat < 0x10000 then '\\' :: 'u' :: hexDigits 4 c.toNat
  else '\\' :: 'U' :: hexDigits 8 c.toNat

def quoted (s : String) : String :=
  let quote := quoteFor s.toList
  String.ofList (quote :: s.toList.flatMap (quoteChar quote) ++ [quote])

end ApiBindings.Text
