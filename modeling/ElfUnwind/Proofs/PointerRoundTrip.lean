import ElfUnwind.Frame.Writer
import ElfUnwind.Proofs.Leb128RoundTrip

/-!
# Stored pointers are read back

A value that can be stored in a format is read back from the bytes it is written as, whatever
follows (`ValueFormat.takes_write`), and so is a pointer (`PointerEncoding.takes_write`).

## The signed formats

A signed field is read through its two's complement in the width of the field, and then extended to
64 bits. Both steps are reductions to the nearest representative, of a power of 256 that divides
`2 ^ 64`, so the two collapse into one, and the range condition says that this one does nothing.
-/

namespace ElfUnwind

namespace LittleEndian

theorem capacity_eq (width : Nat) : capacity width = 256 ^ width := by
  induction width with
  | zero => rfl
  | succ width ih => rw [capacity, ih, Nat.pow_succ, Nat.mul_comm]

theorem capacity_dvd {width : Nat} (h : width ≤ 8) : capacity width ∣ 2 ^ 64 := by
  rw [capacity_eq, show 2 ^ 64 = 256 ^ 8 by norm_num]
  exact Nat.pow_dvd_pow 256 h

/-- A value in the range of a field is what its two's complement in that field stands for. -/
theorem signed_ofNat {width : Nat} (hw : width ≤ 8) {v : UInt64}
    (hlow : -(capacity width : Int) ≤ 2 * v.toInt64.toInt)
    (hhigh : 2 * v.toInt64.toInt < capacity width) :
    signed width (toNat (ofNat width v.toNat)) = v.toInt64.toInt := by
  have hmod : ((v.toNat % capacity width : Nat) : Int).bmod (capacity width)
      = (v.toNat : Int).bmod (capacity width) := by
    rw [Int.natCast_mod, Int.emod_bmod]
  have hdvd : ((v.toNat : Int).bmod (2 ^ 64)).bmod (capacity width)
      = (v.toNat : Int).bmod (capacity width) := Int.bmod_bmod_of_dvd (capacity_dvd hw)
  rw [signed, toNat_ofNat, hmod, ← hdvd, ← Leb128.toInt_toInt64]
  exact Int.bmod_eq_of_le_mul_two (by omega) (by omega)

end LittleEndian

namespace Read

theorem isWidth_le {width : UInt8} (h : isWidth width = true) : width.toNat ≤ 8 := by
  simp only [isWidth, Bool.or_eq_true, decide_eq_true_eq] at h
  rcases h with ((rfl | rfl) | rfl) | rfl <;> decide

theorem isWidth_two : isWidth 2 = true := rfl

theorem isWidth_four : isWidth 4 = true := rfl

theorem isWidth_eight : isWidth 8 = true := rfl

theorem takes_unsigned (offset : Nat) {width : UInt8} {n : Nat} (hw : isWidth width = true)
    (hn : n < LittleEndian.capacity width.toNat) :
    (unsigned width).Takes offset (LittleEndian.ofNat width.toNat n) (UInt64.ofNat n) := by
  have hbytes := takes_bytes offset (LittleEndian.ofNat width.toNat n)
  rw [LittleEndian.length_ofNat] at hbytes
  rw [unsigned, if_pos hw]
  have h := hbytes.map fun front ↦ UInt64.ofNat (LittleEndian.toNat front)
  rwa [LittleEndian.toNat_ofNat_of_lt hn] at h

theorem takes_unsigned_toNat (offset : Nat) {width : UInt8} {v : UInt64}
    (hw : isWidth width = true) (hv : v.toNat < LittleEndian.capacity width.toNat) :
    (unsigned width).Takes offset (LittleEndian.ofNat width.toNat v.toNat) v := by
  have h := takes_unsigned offset hw hv
  rwa [UInt64.ofNat_toNat] at h

theorem takes_signed (offset : Nat) {width : UInt8} {v : UInt64} (hw : isWidth width = true)
    (hne : width ≠ 1) (hlow : -(LittleEndian.capacity width.toNat : Int) ≤ 2 * v.toInt64.toInt)
    (hhigh : 2 * v.toInt64.toInt < LittleEndian.capacity width.toNat) :
    (signed width).Takes offset (LittleEndian.ofNat width.toNat v.toNat) v.toInt64 := by
  have hbytes := takes_bytes offset (LittleEndian.ofNat width.toNat v.toNat)
  rw [LittleEndian.length_ofNat] at hbytes
  rw [signed, if_pos ⟨hw, hne⟩]
  have h := hbytes.map fun front ↦
    Int64.ofInt (LittleEndian.signed width.toNat (LittleEndian.toNat front))
  rwa [LittleEndian.signed_ofNat (isWidth_le hw) hlow hhigh, Int64.ofInt_toInt] at h

end Read

namespace ValueFormat

variable {addressSize : UInt8} {value : UInt64}

/-- The field of a signed format with a fixed width. -/
theorem takes_signed_write (offset : Nat) {width : UInt8} (hw : Read.isWidth width = true)
    (hne : width ≠ 1) (h : -(LittleEndian.capacity width.toNat : Int) ≤ 2 * value.toInt64.toInt ∧
      2 * value.toInt64.toInt < LittleEndian.capacity width.toNat) :
    (Int64.toUInt64 <$> Read.signed width).Takes offset
      (LittleEndian.ofNat width.toNat value.toNat) value := by
  have hread := (Read.takes_signed offset hw hne h.1 h.2).map Int64.toUInt64
  rwa [UInt64.toUInt64_toInt64] at hread

/-- **A value is read back** from the bytes it is written as in a format it fits. -/
theorem takes_write {format : ValueFormat} (h : format.Fits addressSize value) (offset : Nat) :
    (format.read addressSize).Takes offset (format.write addressSize value) value := by
  obtain ⟨hsize, hrange⟩ := h
  cases format with
  | absptr => exact Read.takes_unsigned_toNat offset (hsize rfl) (hrange _ rfl)
  | uleb128 => exact Read.takes_uleb128_toNat offset value
  | udata2 => exact Read.takes_unsigned_toNat offset Read.isWidth_two (hrange _ rfl)
  | udata4 => exact Read.takes_unsigned_toNat offset Read.isWidth_four (hrange _ rfl)
  | udata8 => exact Read.takes_unsigned_toNat offset Read.isWidth_eight (hrange _ rfl)
  | sleb128 =>
    have h := (Read.takes_sleb128 offset value.toInt64).map Int64.toUInt64
    rwa [UInt64.toUInt64_toInt64] at h
  | sdata2 => exact takes_signed_write offset Read.isWidth_two (by decide) (hrange _ rfl)
  | sdata4 => exact takes_signed_write offset Read.isWidth_four (by decide) (hrange _ rfl)
  | sdata8 => exact takes_signed_write offset Read.isWidth_eight (by decide) (hrange _ rfl)

theorem forward_read {record : Nat} (format : ValueFormat) (addressSize : UInt8) :
    Read.Forward record (format.read addressSize) := by
  cases format with
  | absptr => exact Read.forward_unsigned _
  | uleb128 => exact Read.forward_uleb128
  | udata2 => exact Read.forward_unsigned _
  | udata4 => exact Read.forward_unsigned _
  | udata8 => exact Read.forward_unsigned _
  | sleb128 => exact Read.forward_sleb128.map _
  | sdata2 => exact (Read.forward_signed _).map _
  | sdata4 => exact (Read.forward_signed _).map _
  | sdata8 => exact (Read.forward_signed _).map _

end ValueFormat

namespace PointerEncoding

theorem ne_omitted_of_format? {e : PointerEncoding} {format : ValueFormat}
    (h : e.format? = some format) : e ≠ omitted := by
  rintro rfl
  cases h

/-- **A pointer is read back** from the bytes it is written as. -/
theorem takes_write {e : PointerEncoding} {addressSize : UInt8} {value : UInt64}
    (h : e.Stores addressSize value) (offset : Nat) :
    (e.read addressSize).Takes offset (e.write addressSize value) (some value) := by
  obtain ⟨format, hformat, hfits⟩ := h
  have hne := ne_omitted_of_format? hformat
  rw [read_eq hne hformat, write, if_neg hne, hformat]
  exact (ValueFormat.takes_write hfits offset).map some

/-- The omitted pointer has no bytes and no value. -/
theorem takes_write_omitted (addressSize : UInt8) (value : UInt64) (offset : Nat) :
    (omitted.read addressSize).Takes offset (omitted.write addressSize value) none := by
  rw [read_omitted, write, if_pos rfl]
  exact Read.Takes.pure none offset

theorem forward_read {record : Nat} (e : PointerEncoding) (addressSize : UInt8) :
    Read.Forward record (e.read addressSize) := by
  rw [read]
  split
  · exact Read.Forward.pure none
  · split
    · exact Read.Forward.throw fun _ ↦ trivial
    · exact (ValueFormat.forward_read _ _).map some

end PointerEncoding

end ElfUnwind
