import Duelist.Text.Printable
/-!
# Quoted text

How diagnostics show a text: between double quotes, with escapes for what could not be read
otherwise.
-/

namespace Duelist.Text

/-- A character between double quotes. -/
def quotedChar (c : Char) : List Char :=
  if c = '\x00' then ['\\', '0']
  else if c = '\t' then ['\\', 't']
  else if c = '\r' then ['\\', 'r']
  else if c = '\n' then ['\\', 'n']
  else if c = '\"' then ['\\', '\"']
  else if c = '\\' then ['\\', '\\']
  else if isPrintable c then [c]
  else ['\\', 'u', '\x7b'] ++ Nat.toDigits 16 c.toNat ++ ['\x7d']

/-- A text between double quotes. -/
def quoted (s : String) : String :=
  .ofList ('\"' :: s.toList.flatMap quotedChar ++ ['\"'])

end Duelist.Text
