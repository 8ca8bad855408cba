import ElfUnwind.Bytes.LittleEndian

/-!
# Fixed layouts

A header is a row of little-endian fields of fixed widths. Its decoder takes the fields from the
front of some bytes, one after the other, and fails only where the bytes end too early; its encoder
puts them one after the other. `number_append` is the step of every round trip between the two.
-/

namespace ElfUnwind

/-- A decoder of fields from the front of a byte list; `none` when the bytes end too early. -/
abbrev Fields := StateT (List UInt8) Option

namespace Fields

/-- A field of `width` bytes as a number. -/
def number (width : Nat) : Fields Nat := fun bytes =>
  let front := bytes.take width
  if front.length = width then some (LittleEndian.toNat front, bytes.drop width) else none

/-- A field of two bytes. -/
def half : Fields UInt16 := UInt16.ofNat <$> number 2

/-- A field of four bytes. -/
def word : Fields UInt32 := UInt32.ofNat <$> number 4

/-- An address, offset or size of `width` bytes, widened to eight. -/
def wide (width : Nat) : Fields UInt64 := UInt64.ofNat <$> number width

/-- Bytes whose value does not matter. -/
def skip (width : Nat) : Fields Unit := Functor.discard (number width)

/-- The decoded value, without the bytes that follow it. -/
def decode? {α : Type} (f : Fields α) (bytes : List UInt8) : Option α := (f bytes).map Prod.fst

theorem number_of_le {width : Nat} {bytes : List UInt8} (h : width ≤ bytes.length) :
    number width bytes = some (LittleEndian.toNat (bytes.take width), bytes.drop width) := by
  simp [number, Nat.min_eq_left h]

theorem number_eq_none_iff {width : Nat} {bytes : List UInt8} :
    number width bytes = none ↔ bytes.length < width := by
  simp only [number, List.length_take]
  split <;> simp <;> omega

/-- A number that was written is read back, and what follows it is left. -/
theorem number_append (width n : Nat) (tail : List UInt8) :
    number width (LittleEndian.ofNat width n ++ tail) =
      some (n % LittleEndian.capacity width, tail) := by
  rw [number_of_le (by simp), List.take_append_of_le_length (by simp),
    List.take_of_length_le (by simp), LittleEndian.toNat_ofNat,
    List.drop_append_of_le_length (by simp), List.drop_of_length_le (by simp)]
  rfl

end Fields

end ElfUnwind
