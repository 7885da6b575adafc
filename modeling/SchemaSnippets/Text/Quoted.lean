import SchemaSnippets.Unicode.Visible

/-!
# Texts in double quotes

A text between double quotes in which every character shows itself: quotes, backslashes, line ends
and tabs are escaped by a letter, and a character that cannot stand alone by its number in braces.
-/

namespace SchemaSnippets.Text
open Unicode

/-- The hexadecimal digits of `n`, in lower case and without padding. -/
def hexDigits (n : Nat) : List Char :=
  Nat.toDigits 16 n

/-- One character of a quoted text. -/
def quoteChar (c : Char) : List Char :=
  if c = '"' then ['\\', '"']
  else if c = '\\' then ['\\', '\\']
  else if c = '\n' then ['\\', 'n']
  else if c = '\r' then ['\\', 'r']
  else if c = '\t' then ['\\', 't']
  else if c.toNat = 0 then ['\\', '0']
  else if isVisible c then [c]
  else ['\\', 'u', '\x7b'] ++ hexDigits c.toNat ++ ['\x7d']

/-- The text in double quotes. -/
def quoted (s : String) : String :=
  String.ofList ('"' :: s.toList.flatMap quoteChar ++ ['"'])

end SchemaSnippets.Text
