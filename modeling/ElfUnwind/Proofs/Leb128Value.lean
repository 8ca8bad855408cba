import Mathlib
import ElfUnwind.Bytes.Leb128

/-!
# LEB128 numbers as sums

The bits that reading an encoding gives are the sum of its groups, each times its own power of 128,
cut to 64 bits (`scan_bits`). The signed reading is the same sum, less the power of 128 behind the
last group if the highest bit of that group is set (`Scan.signed_eq`). Both hold for every encoding
whose shift does not leave its 32 bits.

The sign fill stops at 64 bits, but so does everything it could still change: from the tenth byte on
the power that is taken away is a multiple of `2 ^ 64`, and the two cases end in one statement.
-/

namespace ElfUnwind.Leb128

/-- The seven bits of a byte as a number. -/
def group (b : UInt8) : Nat := b.toNat % 128

/-- The sum of the groups of `bytes`, each at its own power of 128. -/
def groupSum : List UInt8 → Nat
  | [] => 0
  | b :: bs => group b + 128 * groupSum bs

theorem toNat_placed {s : Nat} (hs : s < 2 ^ 32) (b : UInt8) :
    (placed (UInt32.ofNat s) b).toNat = (2 ^ s * group b) % 2 ^ 64 := by
  have hn : (UInt32.ofNat s).toNat = s := by simp; omega
  have hb : (b &&& 0x7f).toNat = group b := by
    rw [UInt8.toNat_and]
    exact Nat.and_two_pow_sub_one_eq_mod b.toNat 7
  by_cases h : s < 64
  · have hlt : UInt32.ofNat s < 64 := by rw [UInt32.lt_iff_toNat_lt, hn]; exact h
    rw [placed, if_pos hlt, UInt64.toNat_shiftLeft]
    simp only [UInt8.toNat_toUInt64, UInt32.toNat_toUInt64, hn, hb, Nat.mod_eq_of_lt h]
    rw [Nat.shiftLeft_eq, Nat.mul_comm]
  · have hge : ¬ UInt32.ofNat s < 64 := by rw [UInt32.lt_iff_toNat_lt, hn]; exact h
    rw [placed, if_neg hge]
    obtain ⟨k, rfl⟩ : ∃ k, s = 64 + k := ⟨s - 64, by omega⟩
    rw [Nat.pow_add, Nat.mul_assoc, Nat.mul_mod_right]
    rfl

/-- The bits read are the sum of the groups, cut to 64 bits. -/
theorem scan_bits {s : Nat} {bytes : List UInt8} {r : Scan}
    (hs : s + 7 * bytes.length < 2 ^ 32) (h : scan (UInt32.ofNat s) bytes = some r) :
    r.bits.toNat = (2 ^ s * groupSum (bytes.take r.used)) % 2 ^ 64 := by
  induction bytes generalizing s r with
  | nil => simp [scan] at h
  | cons b bs ih =>
    simp only [List.length_cons] at hs
    rw [scan] at h
    split at h
    · obtain ⟨t, ht, rfl⟩ := Option.map_eq_some_iff.mp h
      have hshift : UInt32.ofNat s + 7 = UInt32.ofNat (s + 7) := by
        apply UInt32.toNat_inj.mp
        simp [UInt32.toNat_add]
      rw [hshift] at ht
      have hrest := ih (by omega) ht
      have hg : group b < 2 ^ 7 := by simp only [group]; omega
      simp only [UInt64.toNat_or, toNat_placed (show s < 2 ^ 32 by omega), hrest,
        List.take_succ_cons, groupSum, ← Nat.or_mod_two_pow]
      congr 1
      have hlt : 2 ^ s * group b < 2 ^ (s + 7) := by
        rw [Nat.pow_add]
        exact Nat.mul_lt_mul_of_pos_left hg (Nat.two_pow_pos s)
      rw [Nat.or_comm, ← Nat.two_pow_add_eq_or_of_lt hlt, Nat.pow_add, Nat.mul_add, Nat.mul_assoc,
        Nat.add_comm]
    · injection h with h
      subst h
      simp [toNat_placed (show s < 2 ^ 32 by omega), groupSum]

/-! ## The bits of a byte -/

theorem continues_iff {b : UInt8} : continues b = true ↔ 128 ≤ b.toNat := by
  have hb := b.toNat_lt
  have hand : (b &&& 0x80).toNat = (b.toNat.testBit 7).toNat * 2 ^ 7 := by
    rw [UInt8.toNat_and]
    exact Nat.and_two_pow b.toNat 7
  rw [continues, bne_iff_ne, ne_eq, ← UInt8.toNat_inj, hand, Nat.testBit_eq_decide_div_mod_eq]
  by_cases h : 128 ≤ b.toNat
  · have hdiv : b.toNat / 128 % 2 = 1 := by omega
    simp [hdiv, h]
  · have hdiv : b.toNat / 128 % 2 = 0 := by omega
    simp [hdiv, h]

/-- Whether the group of a byte has its highest bit set. -/
def isNegative (b : UInt8) : Bool := 64 ≤ group b

theorem sign_bit (b : UInt8) : (b &&& 0x40 != 0) = isNegative b := by
  have hb := b.toNat_lt
  have hand : (b &&& 0x40).toNat = (b.toNat.testBit 6).toNat * 2 ^ 6 := by
    rw [UInt8.toNat_and]
    exact Nat.and_two_pow b.toNat 6
  rw [Bool.eq_iff_iff, bne_iff_ne, ne_eq, ← UInt8.toNat_inj, hand,
    Nat.testBit_eq_decide_div_mod_eq, isNegative, decide_eq_true_iff, group]
  by_cases h : 64 ≤ b.toNat % 128
  · have hdiv : b.toNat / 64 % 2 = 1 := by omega
    simp [hdiv, h]
  · have hdiv : b.toNat / 64 % 2 = 0 := by omega
    simp [hdiv, h]

/-! ## The signed sum -/

/-- The sum of the groups of `bytes` with the sign of the last one. -/
def signedSum : List UInt8 → Int
  | [] => 0
  | [b] => if isNegative b then (group b : Int) - 128 else group b
  | b :: bs => group b + 128 * signedSum bs

theorem signedSum_cons {bs : List UInt8} (h : bs ≠ []) (b : UInt8) :
    signedSum (b :: bs) = group b + 128 * signedSum bs := by
  cases bs with
  | nil => exact absurd rfl h
  | cons c cs => rfl

theorem groupSum_lt (bytes : List UInt8) : groupSum bytes < 2 ^ (7 * bytes.length) := by
  induction bytes with
  | nil => simp [groupSum]
  | cons b bs ih =>
    have hg : group b < 128 := by
      rw [group]
      omega
    have hpow : 2 ^ (7 * (b :: bs).length) = 128 * 2 ^ (7 * bs.length) := by
      rw [List.length_cons, Nat.mul_succ, Nat.pow_add, Nat.mul_comm]
    rw [groupSum, hpow]
    omega

/-- The sign takes away one power of 128, that behind the last group. -/
theorem signedSum_eq {bytes : List UInt8} {last : UInt8} (h : bytes.getLast? = some last) :
    signedSum bytes
      = groupSum bytes - if isNegative last then (2 : Int) ^ (7 * bytes.length) else 0 := by
  induction bytes with
  | nil => simp at h
  | cons b bs ih =>
    cases bs with
    | nil =>
      obtain rfl : b = last := by simpa using h
      rw [signedSum, groupSum, groupSum]
      split <;> simp
    | cons c cs =>
      have hlast : (c :: cs).getLast? = some last := by simpa using h
      have hpow : (2 : Int) ^ (7 * (b :: c :: cs).length) = 128 * 2 ^ (7 * (c :: cs).length) := by
        rw [List.length_cons, Nat.mul_succ, pow_add, mul_comm]
        rfl
      have hsum : (groupSum (b :: c :: cs) : Int) = group b + 128 * groupSum (c :: cs) := by
        rw [groupSum]
        push_cast
        ring
      rw [signedSum_cons (List.cons_ne_nil c cs), ih hlast, hsum, hpow]
      split
      · ring
      · ring

/-! ## What a scan says about its last byte -/

theorem scan_last {shift : UInt32} {bytes : List UInt8} {r : Scan}
    (h : scan shift bytes = some r) : (bytes.take r.used).getLast? = some r.last := by
  induction bytes generalizing shift r with
  | nil => simp [scan] at h
  | cons b bs ih =>
    rw [scan] at h
    split at h
    · obtain ⟨t, ht, rfl⟩ := Option.map_eq_some_iff.mp h
      have hrest := ih ht
      rw [List.take_succ_cons, List.getLast?_cons, hrest]
      rfl
    · cases h
      rfl

theorem used_le {shift : UInt32} {bytes : List UInt8} {r : Scan}
    (h : scan shift bytes = some r) : r.used ≤ bytes.length := by
  refine extent_le ?_
  rw [← scan_used shift bytes, h]
  rfl

theorem scan_shift {s : Nat} {bytes : List UInt8} {r : Scan}
    (h : scan (UInt32.ofNat s) bytes = some r) : r.shift = UInt32.ofNat (s + 7 * r.used) := by
  have hstep : ∀ n : Nat, UInt32.ofNat n + 7 = UInt32.ofNat (n + 7) := by
    intro n
    apply UInt32.toNat_inj.mp
    simp [UInt32.toNat_add]
  induction bytes generalizing s r with
  | nil => simp [scan] at h
  | cons b bs ih =>
    rw [scan, hstep] at h
    split at h
    · obtain ⟨t, ht, rfl⟩ := Option.map_eq_some_iff.mp h
      rw [ih ht]
      congr 1
      simp only
      omega
    · cases h
      rfl

/-! ## The signed reading -/

theorem toInt_toInt64 (u : UInt64) : u.toInt64.toInt = (u.toNat : Int).bmod (2 ^ 64) := by
  rw [← Int64.toInt_toBitVec, UInt64.toBitVec_toInt64, BitVec.toInt_eq_toNat_bmod]
  rfl

/-- Numbers that differ by a multiple of `2 ^ 64` have one two's complement. -/
theorem toInt64_eq_ofInt {u : UInt64} {i k : Int} (h : (u.toNat : Int) = i + 2 ^ 64 * k) :
    u.toInt64 = Int64.ofInt i := by
  apply Int64.toInt_inj.mp
  rw [toInt_toInt64, Int64.toInt_ofInt, h]
  exact Int.add_mul_bmod_self_left i (2 ^ 64) k

theorem toNat_signFill {n : Nat} (h : n < 64) :
    (signFill (UInt32.ofNat n)).toNat = 2 ^ 64 - 2 ^ n := by
  have hn : (UInt32.ofNat n).toNat = n := by simp; omega
  have hlt : UInt32.ofNat n < 64 := by rw [UInt32.lt_iff_toNat_lt, hn]; exact h
  rw [signFill, if_pos hlt, UInt64.toNat_shiftLeft]
  simp only [UInt32.toNat_toUInt64, hn, Nat.mod_eq_of_lt h]
  have hall : ((-1 : UInt64)).toNat = 2 ^ 64 - 1 := rfl
  have hpow : 2 ^ n ≤ 2 ^ 64 := Nat.pow_le_pow_right (by omega) (by omega)
  have hpos : 0 < 2 ^ n := Nat.two_pow_pos n
  rw [hall, Nat.shiftLeft_eq, Nat.sub_mul, Nat.one_mul]
  have hsplit : 2 ^ 64 * 2 ^ n - 2 ^ n = (2 ^ 64 - 2 ^ n) + 2 ^ 64 * (2 ^ n - 1) := by
    obtain ⟨k, hk⟩ : ∃ k, 2 ^ n = k + 1 := ⟨2 ^ n - 1, by omega⟩
    rw [hk] at hpow ⊢
    rw [Nat.mul_succ, Nat.add_sub_cancel]
    omega
  rw [hsplit, Nat.add_mul_mod_self_left, Nat.mod_eq_of_lt (by omega)]

/-- The fill sets the bits above the last group, so it is added to the groups below. -/
theorem toNat_or_signFill {u : UInt64} {n : Nat} (hn : n < 64) (hu : u.toNat < 2 ^ n) :
    (u ||| signFill (UInt32.ofNat n)).toNat = u.toNat + (2 ^ 64 - 2 ^ n) := by
  have hfill : 2 ^ 64 - 2 ^ n = 2 ^ n * (2 ^ (64 - n) - 1) := by
    rw [Nat.mul_sub, Nat.mul_one, ← Nat.pow_add, Nat.add_sub_cancel' (by omega)]
  rw [UInt64.toNat_or, toNat_signFill hn, hfill, Nat.or_comm, ← Nat.two_pow_add_eq_or_of_lt hu,
    Nat.add_comm]

/-- **The signed reading** is the signed sum of the groups, cut to 64 bits. -/
theorem Scan.signed_eq {bytes : List UInt8} {r : Scan} (hlen : 7 * bytes.length < 2 ^ 32)
    (h : scan 0 bytes = some r) : r.signed = Int64.ofInt (signedSum (bytes.take r.used)) := by
  have hbits : r.bits.toNat = groupSum (bytes.take r.used) % 2 ^ 64 := by
    have := scan_bits (s := 0) (by omega) h
    rwa [Nat.pow_zero, Nat.one_mul] at this
  have hshift : r.shift = UInt32.ofNat (7 * r.used) := by
    have := scan_shift (s := 0) h
    rwa [Nat.zero_add] at this
  have hused : (bytes.take r.used).length = r.used := by
    rw [List.length_take, Nat.min_eq_left (used_le h)]
  have hsum := groupSum_lt (bytes.take r.used)
  rw [signedSum_eq (scan_last h), hused]
  rw [hused] at hsum
  rw [Scan.signed, sign_bit]
  by_cases hneg : isNegative r.last
  · rw [if_pos hneg, if_pos hneg]
    by_cases hn : 7 * r.used < 64
    · -- The groups stay below the fill, so nothing is cut.
      have hlt : groupSum (bytes.take r.used) < 2 ^ 64 :=
        Nat.lt_of_lt_of_le hsum (Nat.pow_le_pow_right (by omega) (by omega))
      have hpow : 2 ^ (7 * r.used) ≤ 2 ^ 64 := Nat.pow_le_pow_right (by omega) (by omega)
      rw [Nat.mod_eq_of_lt hlt] at hbits
      refine toInt64_eq_ofInt (k := 1) ?_
      rw [hshift, toNat_or_signFill hn (by rw [hbits]; exact hsum), hbits, Nat.cast_add,
        Nat.cast_sub hpow, Nat.cast_pow, Nat.cast_pow]
      ring
    · -- There is no fill, and what the sign takes away is a multiple of `2 ^ 64`.
      have hfill : signFill r.shift = 0 := by
        have hsmall : 7 * r.used < 2 ^ 32 := by
          have := used_le h
          omega
        rw [hshift, signFill, if_neg]
        rw [UInt32.lt_iff_toNat_lt, UInt32.toNat_ofNat_of_lt' hsmall]
        exact hn
      obtain ⟨m, hm⟩ : ∃ m, 7 * r.used = 64 + m := ⟨7 * r.used - 64, by omega⟩
      rw [hfill, UInt64.or_zero]
      refine toInt64_eq_ofInt (k := 2 ^ m - (groupSum (bytes.take r.used) / 2 ^ 64 : Nat)) ?_
      rw [hbits, hm, pow_add, mul_sub]
      omega
  · rw [if_neg hneg, if_neg hneg, sub_zero]
    refine toInt64_eq_ofInt (k := -(groupSum (bytes.take r.used) / 2 ^ 64 : Nat)) ?_
    rw [hbits]
    omega

end ElfUnwind.Leb128
