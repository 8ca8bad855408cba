/-!
# Little-endian numbers

A byte list as the digits of a number to base 256, the lowest first, and back. `toNat_ofNat` and
`ofNat_toNat` say that the two directions are inverse on numbers that fit the width.
-/

namespace ElfUnwind.LittleEndian

/-- The number whose digits to base 256 are the bytes, the lowest first. -/
def toNat : List UInt8 → Nat
  | [] => 0
  | b :: bs => b.toNat + 256 * toNat bs

/-- The lowest `width` digits of `n` to base 256. -/
def ofNat : (width n : Nat) → List UInt8
  | 0, _ => []
  | width + 1, n => UInt8.ofNat n :: ofNat width (n / 256)

/-- How many numbers have at most `width` digits to base 256. -/
def capacity : (width : Nat) → Nat
  | 0 => 1
  | width + 1 => 256 * capacity width

/-- The signed number of a given width in bytes whose two's complement is `n`. -/
def signed (width n : Nat) : Int := Int.bmod n (capacity width)

theorem capacity_eight : capacity 8 = UInt64.size := rfl

theorem capacity_four : capacity 4 = UInt32.size := rfl

theorem capacity_two : capacity 2 = UInt16.size := rfl

@[simp]
theorem length_ofNat (width n : Nat) : (ofNat width n).length = width := by
  induction width generalizing n with
  | zero => rfl
  | succ width ih => simp [ofNat, ih]

theorem toNat_lt (bytes : List UInt8) : toNat bytes < capacity bytes.length := by
  induction bytes with
  | nil => simp [toNat, capacity]
  | cons b bs ih =>
    have hb := b.toNat_lt
    simp only [toNat, List.length_cons, capacity]
    omega

theorem toNat_ofNat (width n : Nat) : toNat (ofNat width n) = n % capacity width := by
  induction width generalizing n with
  | zero => simp [ofNat, toNat, capacity, Nat.mod_one]
  | succ width ih =>
    rw [ofNat, toNat, ih, capacity, Nat.mod_mul]
    simp

theorem toNat_ofNat_of_lt {width n : Nat} (h : n < capacity width) :
    toNat (ofNat width n) = n := by
  rw [toNat_ofNat, Nat.mod_eq_of_lt h]

@[simp]
theorem ofNat_toNat (bytes : List UInt8) : ofNat bytes.length (toNat bytes) = bytes := by
  induction bytes with
  | nil => rfl
  | cons b bs ih =>
    have hb := b.toNat_lt
    have hdiv : (b.toNat + 256 * toNat bs) / 256 = toNat bs := by omega
    have hmod : UInt8.ofNat (b.toNat + 256 * toNat bs) = b := by
      apply UInt8.toNat_inj.mp
      rw [UInt8.toNat_ofNat']
      omega
    rw [List.length_cons, toNat, ofNat, hdiv, ih, hmod]

end ElfUnwind.LittleEndian
