import DocumentQuery.Text.Printable

/-!
# Quoted text

Text shown to people stands between double quotes.  The quote, the backslash
and the usual control characters get a two-character escape, and any other
character that would not show, or would merge with its neighbour, is written
by its code point in lower-case hexadecimal.
-/

namespace DocumentQuery.Text

/-- One character between the quotes. -/
def quotedChar (c : Char) : List Char :=
  if c = '\x00' then ['\\', '0']
  else if c = '\t' then ['\\', 't']
  else if c = '\n' then ['\\', 'n']
  else if c = '\r' then ['\\', 'r']
  else if c = '"' then ['\\', '"']
  else if c = '\\' then ['\\', '\\']
  else if 0x20 ≤ c.toNat ∧ c.toNat < 0x7F then [c]
  else if isExtender c || !isPrintable c then
    ['\\', 'u', '\x7b'] ++ Nat.toDigits 16 c.toNat ++ ['\x7d']
  else [c]

/-- A text between double quotes. -/
def quoted (s : String) : String :=
  String.ofList ('"' :: s.toList.flatMap quotedChar ++ ['"'])

end DocumentQuery.Text
