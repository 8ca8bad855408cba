/-!
# LEB128 numbers

A number as groups of seven bits, the lowest first, one group a byte; every byte but the last has
its high bit set. Decoding keeps the 64 lowest bits: a group is put at its shift while the shift is
below 64 and dropped from there on. The signed form fills the bits above the last group with copies
of that group's highest bit.

The shift is a 32-bit count, which stays exact for encodings of up to `2 ^ 32 / 7` bytes.
-/

namespace ElfUnwind.Leb128

/-- Whether another group follows this byte. -/
def continues (b : UInt8) : Bool := b &&& 0x80 != 0

/-- The seven bits of a byte, put at `shift`; nothing of them is left from shift 64 on. -/
def placed (shift : UInt32) (b : UInt8) : UInt64 :=
  if shift < 64 then (b &&& 0x7f).toUInt64 <<< shift.toUInt64 else 0

/-- What reading one encoding gives. -/
structure Scan where
  /-- The groups, each at its shift. -/
  bits : UInt64
  /-- The byte that ended the encoding. -/
  last : UInt8
  /-- The shift after the last group. -/
  shift : UInt32
  /-- Bytes read. -/
  used : Nat
  deriving DecidableEq, Repr

/-- Reads groups from `shift` on up to the first byte without continuation; `none` if there is no
such byte. -/
def scan (shift : UInt32) : List UInt8 → Option Scan
  | [] => none
  | b :: bs =>
    if continues b then
      (scan (shift + 7) bs).map fun s =>
        { s with bits := placed shift b ||| s.bits, used := s.used + 1 }
    else
      some { bits := placed shift b, last := b, shift := shift + 7, used := 1 }

/-- The unsigned number at the front of `bytes`, and how many bytes it takes. -/
def decodeUnsigned (bytes : List UInt8) : Option (UInt64 × Nat) :=
  (scan 0 bytes).map fun s => (s.bits, s.used)

/-- The bits from `shift` up, all set; none from shift 64 on. -/
def signFill (shift : UInt32) : UInt64 :=
  if shift < 64 then (-1 : UInt64) <<< shift.toUInt64 else 0

/-- The signed number that a scan stands for. -/
def Scan.signed (s : Scan) : Int64 :=
  if s.last &&& 0x40 != 0 then (s.bits ||| signFill s.shift).toInt64 else s.bits.toInt64

/-- The signed number at the front of `bytes`, and how many bytes it takes. -/
def decodeSigned (bytes : List UInt8) : Option (Int64 × Nat) :=
  (scan 0 bytes).map fun s => (s.signed, s.used)

/-- The shortest unsigned encoding of a number. -/
def encodeUnsigned (n : Nat) : List UInt8 :=
  if n < 128 then [UInt8.ofNat n] else UInt8.ofNat (n % 128 + 128) :: encodeUnsigned (n / 128)
termination_by n
decreasing_by omega

/-- The shortest signed encoding of a number. -/
def encodeSigned (i : Int) : List UInt8 :=
  if -64 ≤ i ∧ i < 64 then [UInt8.ofNat (i % 128).toNat]
  else UInt8.ofNat ((i % 128).toNat + 128) :: encodeSigned (i / 128)
termination_by i.natAbs
decreasing_by omega

/-! ## Where an encoding ends -/

/-- Bytes up to and with the first one that ends an encoding, if there is one. -/
def extent : List UInt8 → Option Nat
  | [] => none
  | b :: bs => if continues b then (extent bs).map (· + 1) else some 1

theorem scan_used (shift : UInt32) (bytes : List UInt8) :
    (scan shift bytes).map Scan.used = extent bytes := by
  induction bytes generalizing shift with
  | nil => rfl
  | cons b bs ih =>
    rw [scan, extent]
    split
    · rw [← ih (shift + 7), Option.map_map, Option.map_map]
      rfl
    · rfl

/-- Bytes behind the end of an encoding are not looked at. -/
theorem scan_take_append {shift : UInt32} {bytes : List UInt8} {r : Scan}
    (h : scan shift bytes = some r) (tail : List UInt8) :
    scan shift (bytes.take r.used ++ tail) = some r := by
  induction bytes generalizing shift r with
  | nil => simp [scan] at h
  | cons b bs ih =>
    rw [scan] at h
    split at h
    · rename_i hb
      obtain ⟨t, ht, rfl⟩ := Option.map_eq_some_iff.mp h
      rw [List.take_succ_cons, List.cons_append, scan, if_pos hb, ih ht]
      rfl
    · rename_i hb
      cases h
      rw [List.take_succ_cons, List.cons_append, scan, if_neg hb]

/-- The signed and the unsigned reading of the same bytes take the same bytes. -/
theorem decodeSigned_used (bytes : List UInt8) :
    (decodeSigned bytes).map Prod.snd = (decodeUnsigned bytes).map Prod.snd := by
  simp [decodeSigned, decodeUnsigned, Option.map_map, Function.comp_def]

theorem extent_eq_none_iff {bytes : List UInt8} :
    extent bytes = none ↔ ∀ b ∈ bytes, continues b = true := by
  induction bytes with
  | nil => simp [extent]
  | cons b bs ih => cases hb : continues b <;> simp [extent, hb, ih]

theorem extent_pos {bytes : List UInt8} {n : Nat} (h : extent bytes = some n) : 0 < n := by
  cases bytes with
  | nil => simp [extent] at h
  | cons b bs =>
    simp only [extent] at h
    split at h
    · obtain ⟨m, _, rfl⟩ := Option.map_eq_some_iff.mp h
      omega
    · injection h with h
      omega

theorem extent_le {bytes : List UInt8} {n : Nat} (h : extent bytes = some n) :
    n ≤ bytes.length := by
  induction bytes generalizing n with
  | nil => simp [extent] at h
  | cons b bs ih =>
    simp only [extent] at h
    split at h
    · obtain ⟨m, hm, rfl⟩ := Option.map_eq_some_iff.mp h
      have := ih hm
      simp only [List.length_cons]
      omega
    · injection h with h
      simp only [List.length_cons]
      omega

end ElfUnwind.Leb128
