import RemoteImports.Text.Hex
import RemoteImports.Text.Split

/-!
# Quoted strings

The written form of a string in the JSON data format, which is also a double-quoted literal of a
script. `quote` writes it; inside the quotes only the quotation mark, the backslash and the control
characters are escaped.
-/

namespace RemoteImports.Text

/-- The written form of one character inside quotes. -/
def escape (c : Char) : List Char :=
  if c = '"' then ['\\', '"']
  else if c = '\\' then ['\\', '\\']
  else if c.toNat = 8 then ['\\', 'b']
  else if c.toNat = 9 then ['\\', 't']
  else if c.toNat = 10 then ['\\', 'n']
  else if c.toNat = 12 then ['\\', 'f']
  else if c.toNat = 13 then ['\\', 'r']
  else if c.toNat < 0x20 then
    ['\\', 'u', '0', '0', hexDigit (c.toNat / 16), hexDigit (c.toNat % 16)]
  else [c]

/-- A string between double quotes, its special characters escaped. -/
def quoteChars (text : List Char) : List Char := '"' :: text.flatMap escape ++ ['"']

/-- A string between double quotes, its special characters escaped. -/
def quote (text : String) : String := String.ofList (quoteChars text.toList)

end RemoteImports.Text
