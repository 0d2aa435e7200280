import LiveTemplate.Text.Printable

/-!
# Quoted text

Text between double quotes, as inspection output shows it: a short escape for the quote, the
backslash and the usual control characters, the code point in braces for whatever cannot be
shown, and every other character as it is.
-/

namespace LiveTemplate.Text

/-- The lower-case hexadecimal digits of a natural. -/
def hexDigits (n : Nat) : List Char := Nat.toDigits 16 n

/-- One character inside quoted text. -/
def quoteChar (c : Char) : List Char :=
  if c == '\x00' then ['\\', '0']
  else if c == '\t' then ['\\', 't']
  else if c == '\r' then ['\\', 'r']
  else if c == '\n' then ['\\', 'n']
  else if c == '\\' then ['\\', '\\']
  else if c == '"' then ['\\', '"']
  else if standsForItself c then [c]
  else ['\\', 'u', '\x7b'] ++ hexDigits c.toNat ++ ['\x7d']

/-- A text in double quotes. -/
def quoted (s : String) : String :=
  String.ofList ('"' :: s.toList.flatMap quoteChar ++ ['"'])

end LiveTemplate.Text
