import ElfUnwind.Told

/-!
# Media

A medium serves bytes at positions. Every read names the position and the length it wants, and gets
exactly that or fails; there is no position that reads share. A whole range is asked for with
`readRange`, which looks at the size of the medium first, so a length that cannot be there is
refused without a read.
-/

namespace ElfUnwind

/-- Bytes that can be read at positions, with a state that reads may look at and change. -/
structure Medium (σ : Type) where
  /-- The size that ranges are checked against. -/
  size : Nat
  /-- Reads exactly `length` bytes at `offset`. -/
  read : (length : Nat) → (offset : UInt64) → Task σ (List UInt8)

namespace Medium

variable {σ : Type}

/-- Whether there are no bytes. -/
def isEmpty (m : Medium σ) : Bool := m.size = 0

/-- Reads a range that lies within the medium. -/
def readRange (m : Medium σ) (length offset : UInt64) : Task σ (List UInt8) :=
  if offset.toNat + length.toNat ≤ m.size then m.read length.toNat offset
  else throw (.truncatedRead offset.toNat length.toNat)

/-- A medium of bytes that are at hand. -/
def ofBytes (bytes : List UInt8) : Medium σ where
  size := bytes.length
  read length offset :=
    if offset.toNat + length ≤ bytes.length then
      return (bytes.drop offset.toNat).take length
    else
      throw (.truncatedRead offset.toNat length)

theorem runFrom_read_ofBytes_of_le {bytes : List UInt8} {length : Nat} {offset : UInt64}
    (h : offset.toNat + length ≤ bytes.length) (s : σ) :
    ((ofBytes bytes).read length offset).runFrom s =
      pure (.ok ((bytes.drop offset.toNat).take length), s) := by
  simp [ofBytes, Task.runFrom, h]

theorem runFrom_read_ofBytes_of_lt {bytes : List UInt8} {length : Nat} {offset : UInt64}
    (h : bytes.length < offset.toNat + length) (s : σ) :
    ((ofBytes bytes).read length offset).runFrom s =
      pure (.error (.truncatedRead offset.toNat length), s) := by
  simp [ofBytes, Task.runFrom, Nat.not_le.mpr h]

end Medium

end ElfUnwind
