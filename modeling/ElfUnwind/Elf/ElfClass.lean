import ElfUnwind.Error

/-!
# Identification

The first sixteen bytes of an image say whether it is one, how its numbers are stored and how wide
its addresses are. Only little-endian images of 32-bit or 64-bit addresses are read.
-/

namespace ElfUnwind

/-- How wide the addresses of an image are. -/
inductive ElfClass where
  /-- Addresses of 32 bits. -/
  | elf32
  /-- Addresses of 64 bits. -/
  | elf64
  deriving DecidableEq, Repr

namespace ElfClass

/-- The name of a class. -/
def name : ElfClass → String
  | elf32 => "Elf32"
  | elf64 => "Elf64"

/-- Bytes of an address. -/
def pointerSize : ElfClass → UInt8
  | elf32 => 4
  | elf64 => 8

/-- Bits of an address. -/
def bits (c : ElfClass) : Nat := c.pointerSize.toNat * 8

/-- Bytes of an address, offset or size field. -/
def wordSize (c : ElfClass) : Nat := c.pointerSize.toNat

/-- Bytes of the file header. -/
def headerSize : ElfClass → Nat
  | elf32 => 52
  | elf64 => 64

/-- Bytes of an entry of the section table. -/
def sectionEntrySize : ElfClass → Nat
  | elf32 => 40
  | elf64 => 64

/-- Bytes of an entry of the segment table. -/
def segmentEntrySize : ElfClass → Nat
  | elf32 => 32
  | elf64 => 56

/-- How many identification bytes there are. -/
def identSize : Nat := 16

/-- The bytes every image begins with. -/
def magic : List UInt8 := [0x7f, 0x45, 0x4c, 0x46]

/-- The class that identification bytes declare. The magic is looked at first, then the way numbers
are stored, then the class. -/
def ofIdent (ident : List UInt8) : Except IdentFault ElfClass :=
  if ident.length < identSize ∨ ident.take 4 ≠ magic then .error .magic
  else
    let dataEncoding := ident.getD 5 0
    if dataEncoding ≠ 1 then .error (.dataEncoding dataEncoding)
    else
      let wordClass := ident.getD 4 0
      if wordClass = 1 then .ok elf32
      else if wordClass = 2 then .ok elf64
      else .error (.wordClass wordClass)

/-- The byte that declares a class. -/
def identByte : ElfClass → UInt8
  | elf32 => 1
  | elf64 => 2

/-- The identification bytes of a little-endian image of a class. -/
def ident (c : ElfClass) : List UInt8 :=
  magic ++ [c.identByte, 1, 1] ++ List.replicate 9 0

@[simp]
theorem ofIdent_ident (c : ElfClass) : ofIdent c.ident = .ok c := by
  cases c <;> rfl

example : ofIdent [0x7f, 0x45] = .error .magic := rfl

end ElfClass

end ElfUnwind
