import ScopeLint.Text.Printable

/-!
A string shown inside a message: between double quotes, with a quote and a backslash escaped
and with every character that cannot be shown given by its code point.
-/

set_option autoImplicit false

namespace ScopeLint.Text

/-- The braces of a code point in hexadecimal, without leading zeros. -/
def codePointEscape (char : Char) : List Char :=
  '\\' :: 'u' :: '{' :: Nat.toDigits 16 char.toNat ++ ['}']

def shownChar (char : Char) : List Char :=
  if char = '"' then ['\\', '"']
  else if char = '\\' then ['\\', '\\']
  else if char = '\n' then ['\\', 'n']
  else if char = '\r' then ['\\', 'r']
  else if char = '\t' then ['\\', 't']
  else if char.toNat = 0 then ['\\', '0']
  else if isPrintable char then [char]
  else codePointEscape char

def quoted (value : String) : String :=
  String.ofList ('"' :: value.toList.flatMap shownChar ++ ['"'])

end ScopeLint.Text
