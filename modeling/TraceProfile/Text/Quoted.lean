import TraceProfile.Text.Printable

/-!
# Quoted texts

A text from outside is shown in double quotes, so that its ends can be seen. Quotes and backslashes
are escaped by a backslash, line ends, tabs and the zero character by a letter, and every other
character that would not be seen by its code point in hexadecimal.
-/

namespace TraceProfile.Quoted

/-- A character as it stands between quotes. -/
def escape (c : Char) : List Char :=
  if c = '"' then ['\\', '"']
  else if c = '\\' then ['\\', '\\']
  else if c = '\n' then ['\\', 'n']
  else if c = '\r' then ['\\', 'r']
  else if c = '\t' then ['\\', 't']
  else if c.toNat = 0 then ['\\', '0']
  else if isPrintable c then [c]
  else ['\\', 'u', '\x7b'] ++ Nat.toDigits 16 c.toNat ++ ['\x7d']

/-- A text in quotes. -/
def encode (text : String) : String :=
  String.ofList ('"' :: (text.toList.flatMap escape ++ ['"']))

end TraceProfile.Quoted
