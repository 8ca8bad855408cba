/-!
# Hexadecimal text

Addresses, offsets and bytes are written in lower-case hexadecimal. Three spellings are used:
bare digits, digits behind `0x`, and a byte as exactly two digits.
-/

namespace ElfUnwind.Text

/-- The digits of `n` to base sixteen, lower case, without leading zeros; zero is `0`. -/
def hex (n : Nat) : String := String.ofList (Nat.toDigits 16 n)

/-- The digits of `n` to base sixteen behind `0x`. -/
def hexAddress (n : Nat) : String := "0x" ++ hex n

/-- A byte as exactly two digits. -/
def hexByte (b : UInt8) : String :=
  String.ofList (Nat.toDigits 16 (b.toNat / 16) ++ Nat.toDigits 16 (b.toNat % 16))

/-- A byte as exactly two digits behind `0x`. -/
def hexByteAddress (b : UInt8) : String := "0x" ++ hexByte b

example : hex 0 = "0" ∧ hex 48879 = "beef" ∧ hexAddress 255 = "0xff" := by cbv

example : hexByte 7 = "07" ∧ hexByteAddress 0xab = "0xab" := by cbv

end ElfUnwind.Text
