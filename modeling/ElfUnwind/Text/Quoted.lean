import ElfUnwind.Text.CharClass
import ElfUnwind.Text.Hex

/-!
# Quoted text

Text that came from bytes is shown between double quotes. Double quotes and backslashes get a
backslash, the common controls their letter, and a character that is invisible, or that would attach
to its neighbour, the hexadecimal number of its code point. A single quote stays as it is.
-/

namespace ElfUnwind.Text

/-- One character as it stands between quotes. -/
def escapeChar (c : Char) : List Char :=
  if c = '\x00' then ['\\', '0']
  else if c = '\t' then ['\\', 't']
  else if c = '\n' then ['\\', 'n']
  else if c = '\r' then ['\\', 'r']
  else if c = '"' ∨ c = '\\' then ['\\', c]
  else if isPrintable c && !isExtending c then [c]
  else ['\\', 'u', '\x7b'] ++ Nat.toDigits 16 c.toNat ++ ['\x7d']

/-- Text between double quotes. -/
def quote (text : String) : String :=
  String.ofList ('"' :: text.toList.flatMap escapeChar ++ ['"'])

@[simp]
theorem toList_quote (text : String) :
    (quote text).toList = '"' :: text.toList.flatMap escapeChar ++ ['"'] := by
  simp [quote]

/-- Quoting works character by character. -/
theorem toList_quote_append (a b : String) :
    (quote (a ++ b)).toList =
      '"' :: (a.toList.flatMap escapeChar ++ b.toList.flatMap escapeChar) ++ ['"'] := by
  simp

example : escapeChar '\u0301' = ['\\', 'u', '\x7b', '3', '0', '1', '\x7d'] := by
  decide +kernel

example : escapeChar '\'' = ['\''] ∧ escapeChar '"' = ['\\', '"'] := by
  decide +kernel

end ElfUnwind.Text
