import ElfUnwind.Frame.PointerEncoding

/-!
# Entries of call frame information

A common information entry (CIE) holds what several functions share, a frame description entry (FDE)
the range of one function; both carry unwinding instructions, which are kept as bytes. Ranges are
half open and of 64-bit addresses, and lengths wrap around with them.
-/

namespace ElfUnwind

/-- A common information entry. -/
structure Cie where
  /-- Where the record begins in its section. -/
  offset : Nat
  /-- The version of the layout. -/
  version : UInt8
  /-- What additional data the entry and its FDEs have. -/
  augmentation : String
  /-- Bytes of an address stored as such. -/
  addressSize : UInt8
  /-- The factor of data offsets in the instructions. -/
  dataAlignment : Int64
  /-- How the addresses of FDEs are stored. -/
  addressEncoding : PointerEncoding
  /-- How FDEs point to language-specific data; zero if they do not. -/
  lsdaEncoding : PointerEncoding
  /-- Whether the record has the long form of the length. -/
  isWide : Bool
  /-- The instructions every FDE begins with. -/
  instructions : List UInt8
  deriving DecidableEq, Repr

namespace Cie

/-- Whether FDEs give the length of their augmentation data. -/
def hasAugmentationData (c : Cie) : Bool := c.augmentation.toList.head? = some 'z'

/-- Whether FDEs have a pointer to language-specific data. -/
def hasLsda (c : Cie) : Bool := c.lsdaEncoding.byte ≠ 0 ∧ c.lsdaEncoding ≠ .omitted

end Cie

/-- A frame description entry. -/
structure Fde where
  /-- Where the record begins in its section. -/
  offset : Nat
  /-- The CIE it was decoded with. -/
  cie : Cie
  /-- The first address of the function. -/
  start : UInt64
  /-- The address after the last. -/
  stop : UInt64
  /-- Whether the record has the long form of the length. -/
  isWide : Bool
  /-- The instructions of the function. -/
  instructions : List UInt8
  deriving DecidableEq, Repr

namespace Fde

/-- How its addresses are stored. -/
def addressEncoding (f : Fde) : PointerEncoding := f.cie.addressEncoding

/-- The length of the range, modulo the number of addresses. -/
def length (f : Fde) : UInt64 := f.stop - f.start

/-- Whether the range has length zero. -/
def isEmpty (f : Fde) : Bool := f.length = 0

/-- Whether an address lies in the range. -/
def contains (f : Fde) (address : UInt64) : Bool := f.start ≤ address && address < f.stop

theorem contains_iff {f : Fde} {address : UInt64} :
    f.contains address = true ↔ f.start ≤ address ∧ address < f.stop := by
  simp [contains]

theorem isEmpty_iff {f : Fde} : f.isEmpty = true ↔ f.start = f.stop := by
  have hzero : f.stop - f.start = 0 ↔ f.start = f.stop := by
    have hstart := f.start.toNat_lt
    have hstop := f.stop.toNat_lt
    rw [← UInt64.toNat_inj, ← UInt64.toNat_inj, UInt64.toNat_sub, UInt64.toNat_zero]
    omega
  rw [isEmpty, decide_eq_true_iff, length, hzero]

end Fde

end ElfUnwind
