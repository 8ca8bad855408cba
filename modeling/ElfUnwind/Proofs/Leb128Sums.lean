import ElfUnwind.Proofs.Leb128Value

/-!
# LEB128 numbers by position

What decoding gives is said here of the bytes alone: the first byte without continuation bit ends
the encoding, and the value is the sum of the groups up to it, each times the power of 128 of its
index, modulo `2 ^ 64` (`decodeUnsigned_eq_sum`). The signed value is the same sum, less the power
behind the last group if that group is negative (`decodeSigned_eq_sum`). An encoding may be longer
than it need be, and then the powers from the eleventh byte on are multiples of `2 ^ 64`.
-/

namespace ElfUnwind.Leb128

variable {bytes : List UInt8} {k : ℕ}

/-! ## Where an encoding ends -/

theorem extent_eq_findIdx? (bytes : List UInt8) :
    extent bytes = (bytes.findIdx? fun b ↦ !continues b).map (· + 1) := by
  induction bytes with
  | nil => rfl
  | cons b bs ih =>
    rw [extent, List.findIdx?_cons]
    by_cases hb : continues b = true
    · rw [if_pos hb, if_neg (by simp [hb]), ih]
    · rw [if_neg hb, if_pos (by simp [hb])]
      rfl

theorem exists_scan_of_findIdx? (h : bytes.findIdx? (fun b ↦ !continues b) = some k) :
    ∃ r, scan 0 bytes = some r ∧ r.used = k + 1 := by
  have hextent : extent bytes = some (k + 1) := by rw [extent_eq_findIdx?, h, Option.map_some]
  rw [← scan_used 0 bytes] at hextent
  exact Option.map_eq_some_iff.mp hextent

theorem decodeUnsigned_eq_none_iff :
    decodeUnsigned bytes = none ↔ ∀ b ∈ bytes, continues b = true := by
  rw [decodeUnsigned, Option.map_eq_none_iff, ← extent_eq_none_iff, ← scan_used 0 bytes,
    Option.map_eq_none_iff]

theorem decodeSigned_eq_none_iff :
    decodeSigned bytes = none ↔ ∀ b ∈ bytes, continues b = true := by
  rw [← decodeUnsigned_eq_none_iff, decodeSigned, decodeUnsigned, Option.map_eq_none_iff,
    Option.map_eq_none_iff]

/-! ## The sum of the groups -/

/-- The sum of the first `n` groups; behind the last byte there are none. -/
theorem groupSum_take (bytes : List UInt8) (n : ℕ) :
    groupSum (bytes.take n) = ∑ i ∈ Finset.range n, group (bytes.getD i 0) * 2 ^ (7 * i) := by
  induction bytes generalizing n with
  | nil =>
    rw [List.take_nil, groupSum]
    exact (Finset.sum_eq_zero fun i _ ↦ Nat.zero_mul _).symm
  | cons b bs ih =>
    induction n with
    | zero => rfl
    | succ n _ =>
      have hstep : ∀ i ∈ Finset.range n,
          group ((b :: bs).getD (i + 1) 0) * 2 ^ (7 * (i + 1))
            = 128 * (group (bs.getD i 0) * 2 ^ (7 * i)) := by
        intro i _
        rw [List.getD_cons_succ, Nat.mul_succ, pow_add]
        ring
      rw [List.take_succ_cons, groupSum, ih n, Finset.sum_range_succ', Finset.sum_congr rfl hstep,
        ← Finset.mul_sum, List.getD_cons_zero, Nat.mul_zero, pow_zero, mul_one, Nat.add_comm]

/-- Of the tenth group the lowest bit is left below `2 ^ 64`, and of those behind it nothing. -/
theorem sum_groups_mod (bytes : List UInt8) (hk : 9 ≤ k) :
    (∑ i ∈ Finset.range (k + 1), group (bytes.getD i 0) * 2 ^ (7 * i)) % 2 ^ 64
      = ∑ i ∈ Finset.range 9, group (bytes.getD i 0) * 2 ^ (7 * i)
        + (bytes.getD 9 0).toNat % 2 * 2 ^ 63 := by
  obtain ⟨m, rfl⟩ := Nat.exists_eq_add_of_le hk
  have hfront : ∑ i ∈ Finset.range 9, group (bytes.getD i 0) * 2 ^ (7 * i) < 2 ^ 63 := by
    rw [← groupSum_take]
    refine (groupSum_lt _).trans_le (Nat.pow_le_pow_right (by norm_num) ?_)
    exact Nat.mul_le_mul_left 7 (List.length_take_le 9 bytes)
  obtain ⟨rest, hrest⟩ : 2 ^ 64 ∣ ∑ i ∈ Finset.range m,
      group (bytes.getD (9 + (i + 1)) 0) * 2 ^ (7 * (9 + (i + 1))) := by
    refine Finset.dvd_sum fun i _ ↦ Dvd.dvd.mul_left ?_ _
    exact Nat.pow_dvd_pow 2 (by omega)
  rw [Nat.add_assoc, Finset.sum_range_add, Finset.sum_range_succ' _ m, hrest, Nat.add_zero, group]
  omega

/-! ## The unsigned number -/

/-- **The unsigned number** at the front of some bytes ends with the first byte that does not
continue it, and is the sum of the groups up to there modulo `2 ^ 64`. Of a tenth byte the lowest
bit counts, and of what follows nothing. -/
theorem decodeUnsigned_eq_sum (hlen : 7 * bytes.length < 2 ^ 32) :
    (decodeUnsigned bytes = none ↔ ∀ b ∈ bytes, continues b = true) ∧
      ∀ k, bytes.findIdx? (fun b ↦ !continues b) = some k →
        (∃ value, decodeUnsigned bytes = some (value, k + 1) ∧
          value.toNat
            = (∑ i ∈ Finset.range (k + 1), group (bytes.getD i 0) * 2 ^ (7 * i)) % 2 ^ 64 ∧
          (9 ≤ k → value.toNat = ∑ i ∈ Finset.range 9, group (bytes.getD i 0) * 2 ^ (7 * i)
            + (bytes.getD 9 0).toNat % 2 * 2 ^ 63)) ∧
        ∀ tail, decodeUnsigned (bytes.take (k + 1) ++ tail) = decodeUnsigned bytes := by
  refine ⟨decodeUnsigned_eq_none_iff, fun k hk ↦ ?_⟩
  obtain ⟨r, hscan, hused⟩ := exists_scan_of_findIdx? hk
  have hdecode : decodeUnsigned bytes = some (r.bits, k + 1) := by
    rw [decodeUnsigned, hscan, Option.map_some, hused]
  have hbits : r.bits.toNat
      = (∑ i ∈ Finset.range (k + 1), group (bytes.getD i 0) * 2 ^ (7 * i)) % 2 ^ 64 := by
    have hsum := scan_bits (s := 0) (by rwa [Nat.zero_add]) hscan
    rwa [pow_zero, one_mul, hused, groupSum_take] at hsum
  refine ⟨⟨r.bits, hdecode, hbits, fun hten ↦ ?_⟩, fun tail ↦ ?_⟩
  · rw [hbits, sum_groups_mod bytes hten]
  · have htail := scan_take_append hscan tail
    rw [hused] at htail
    rw [hdecode, decodeUnsigned, htail, Option.map_some, hused]

/-- More bytes than any 64-bit number needs, and one behind them. -/
def overlong : List UInt8 := List.replicate 11 0xff ++ [0x00, 0x55]

theorem decodeUnsigned_eq_sum_overlong :
    7 * overlong.length < 2 ^ 32 ∧ overlong.findIdx? (fun b ↦ !continues b) = some 11 ∧
      (∃ value, decodeUnsigned overlong = some (value, 12) ∧ value.toNat = 2 ^ 64 - 1) ∧
      decodeUnsigned (overlong.take 12) = decodeUnsigned overlong := by
  have hlen : 7 * overlong.length < 2 ^ 32 := by decide
  have hlast : overlong.findIdx? (fun b ↦ !continues b) = some 11 := by decide
  obtain ⟨⟨value, hdecode, hvalue, -⟩, htail⟩ := (decodeUnsigned_eq_sum hlen).2 11 hlast
  have hnil := htail []
  rw [List.append_nil] at hnil
  exact ⟨hlen, hlast, ⟨value, hdecode, hvalue.trans (by decide)⟩, hnil⟩

/-! ## The signed number -/

theorem isNegative_eq_testBit (b : UInt8) : isNegative b = b.toNat.testBit 6 := by
  have hmod : b.toNat % 128 / 64 = b.toNat / 64 % 2 := by omega
  rw [isNegative, group, Nat.testBit_eq_decide_div_mod_eq, decide_eq_decide, ← hmod]
  omega

theorem signedSum_take (h : bytes.findIdx? (fun b ↦ !continues b) = some k) :
    signedSum (bytes.take (k + 1))
      = (∑ i ∈ Finset.range (k + 1), group (bytes.getD i 0) * 2 ^ (7 * i) : ℕ)
        - if (bytes.getD k 0).toNat.testBit 6 then (2 : ℤ) ^ (7 * (k + 1)) else 0 := by
  obtain ⟨hk, -⟩ := List.findIdx?_eq_some_iff_getElem.mp h
  have hlast : (bytes.take (k + 1)).getLast? = some (bytes.getD k 0) := by
    rw [List.take_succ_eq_append_getElem hk, List.getLast?_concat, List.getD_eq_getElem _ _ hk]
  have hlength : (bytes.take (k + 1)).length = k + 1 := List.length_take_of_le hk
  rw [signedSum_eq hlast, groupSum_take, isNegative_eq_testBit, hlength]

/-- **The signed number** at the front of some bytes ends where the unsigned one does. It is the
64-bit number in two's complement that is congruent to the sum of the groups, less the power behind
the last group if bit 6 of the last byte is set. -/
theorem decodeSigned_eq_sum (hlen : 7 * bytes.length < 2 ^ 32) :
    (decodeSigned bytes = none ↔ ∀ b ∈ bytes, continues b = true) ∧
      (decodeSigned bytes).map Prod.snd = (decodeUnsigned bytes).map Prod.snd ∧
      ∀ k, bytes.findIdx? (fun b ↦ !continues b) = some k →
        ∃ value, decodeSigned bytes = some (value, k + 1) ∧
          value.toInt ≡ (∑ i ∈ Finset.range (k + 1), group (bytes.getD i 0) * 2 ^ (7 * i) : ℕ)
            - (if (bytes.getD k 0).toNat.testBit 6 then 2 ^ (7 * (k + 1)) else 0)
            [ZMOD 2 ^ 64] := by
  refine ⟨decodeSigned_eq_none_iff, decodeSigned_used bytes, fun k hk ↦ ?_⟩
  obtain ⟨r, hscan, hused⟩ := exists_scan_of_findIdx? hk
  refine ⟨r.signed, ?_, ?_⟩
  · rw [decodeSigned, hscan, Option.map_some, hused]
  · rw [← signedSum_take hk, Scan.signed_eq hlen hscan, hused, Int64.toInt_ofInt]
    exact Int.bmod_emod

/-- The shortest encoding of the least number, of ten bytes. -/
def lowest : List UInt8 := List.replicate 9 0x80 ++ [0x7f]

theorem decodeSigned_eq_sum_lowest :
    7 * lowest.length < 2 ^ 32 ∧ lowest.findIdx? (fun b ↦ !continues b) = some 9 ∧
      ∃ value, decodeSigned lowest = some (value, 10) ∧ value.toInt ≡ -2 ^ 63 [ZMOD 2 ^ 64] := by
  have hlen : 7 * lowest.length < 2 ^ 32 := by decide
  have hlast : lowest.findIdx? (fun b ↦ !continues b) = some 9 := by decide
  obtain ⟨value, hdecode, hvalue⟩ := (decodeSigned_eq_sum hlen).2.2 9 hlast
  exact ⟨hlen, hlast, value, hdecode, hvalue.trans (by decide)⟩

end ElfUnwind.Leb128
