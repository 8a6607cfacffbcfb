import RomCatalog.Text.Combining
import RomCatalog.Text.Unprintable

/-!
Quoted text, the way string literals are written in the generated code: a backslash and a letter
for the common controls, a backslash before a backslash or a quotation mark, and a braced
hexadecimal number for every character that cannot be shown or that would join the one before it.
-/

namespace RomCatalog.Text

/-- The digits of a number in base sixteen, lower case, without leading zeros; the first argument
bounds how many there can be. -/
def hexDigits : Nat → Nat → List Char
  | 0, _ => []
  | digits + 1, n => if n < 16 then [n.digitChar] else hexDigits digits (n / 16) ++ [(n % 16).digitChar]

def braced (c : Char) : List Char :=
  ['\\', 'u', '\x7b'] ++ hexDigits 6 c.toNat ++ ['\x7d']

def quoteChar (c : Char) : List Char :=
  if c = '\x00' then ['\\', '0']
  else if c = '\t' then ['\\', 't']
  else if c = '\r' then ['\\', 'r']
  else if c = '\n' then ['\\', 'n']
  else if c = '\\' then ['\\', '\\']
  else if c = '"' then ['\\', '"']
  else if isCombining c then braced c
  else if isPrintable c then [c]
  else braced c

/-- A literal that denotes the text: it starts and ends with a quotation mark and holds no other
that is not escaped. -/
def quote (text : String) : String :=
  String.ofList ('"' :: text.toList.flatMap quoteChar ++ ['"'])

end RomCatalog.Text
