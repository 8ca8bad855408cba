import ElfUnwind.Proofs.Leb128Value
import ElfUnwind.Proofs.Reads

/-!
# LEB128 numbers are read back

The shortest encodings have the number they encode as the sum of their groups, end where they end,
and are at most ten bytes long; with the value of a scan this gives back every 64-bit number
(`decodeUnsigned_encodeUnsigned`, `decodeSigned_encodeSigned`), whatever stands behind it.
-/

namespace ElfUnwind.Leb128

/-! ## Reading an encoding that ends -/

/-- Bytes that end an encoding with their last one are scanned whole. -/
theorem exists_scan_of_extent (shift : UInt32) {bytes : List UInt8}
    (h : extent bytes = some bytes.length) :
    ∃ r, scan shift bytes = some r ∧ r.used = bytes.length := by
  rw [← scan_used shift bytes] at h
  exact Option.map_eq_some_iff.mp h

theorem scan_append {shift : UInt32} {bytes : List UInt8} {r : Scan}
    (h : scan shift bytes = some r) (hr : r.used = bytes.length) (tail : List UInt8) :
    scan shift (bytes ++ tail) = some r := by
  have := scan_take_append h tail
  rwa [hr, List.take_length] at this

/-- The bytes that a scan has used are scanned alike. -/
theorem scan_take_used {shift : UInt32} {bytes : List UInt8} {r : Scan}
    (h : scan shift bytes = some r) :
    scan shift (bytes.take r.used) = some r ∧ (bytes.take r.used).length = r.used := by
  have hfront := scan_take_append h []
  rw [List.append_nil] at hfront
  exact ⟨hfront, List.length_take_of_le (used_le h)⟩

theorem decodeUnsigned_append {bytes : List UInt8} (hend : extent bytes = some bytes.length)
    (hlen : 7 * bytes.length < 2 ^ 32) (tail : List UInt8) :
    decodeUnsigned (bytes ++ tail)
      = some (UInt64.ofNat (groupSum bytes), bytes.length) := by
  obtain ⟨r, hscan, hused⟩ := exists_scan_of_extent 0 hend
  have hbits : r.bits = UInt64.ofNat (groupSum bytes) := by
    have hsum := scan_bits (s := 0) (by omega) hscan
    rw [Nat.pow_zero, Nat.one_mul, hused, List.take_length] at hsum
    apply UInt64.toNat_inj.mp
    rw [hsum, UInt64.toNat_ofNat']
  rw [decodeUnsigned, scan_append hscan hused, Option.map_some, hbits, hused]

theorem decodeSigned_append {bytes : List UInt8} (hend : extent bytes = some bytes.length)
    (hlen : 7 * bytes.length < 2 ^ 32) (tail : List UInt8) :
    decodeSigned (bytes ++ tail) = some (Int64.ofInt (signedSum bytes), bytes.length) := by
  obtain ⟨r, hscan, hused⟩ := exists_scan_of_extent 0 hend
  have hsigned := Scan.signed_eq hlen hscan
  rw [hused, List.take_length] at hsigned
  rw [decodeSigned, scan_append hscan hused, Option.map_some, hsigned, hused]

/-! ## The bytes of an encoding -/

theorem toNat_ofNat_byte {n : Nat} (h : n < 256) : (UInt8.ofNat n).toNat = n :=
  UInt8.toNat_ofNat_of_lt' h

theorem continues_of_lt {n : Nat} (h : n < 128) : continues (UInt8.ofNat n) = false := by
  rw [Bool.eq_false_iff, ne_eq, continues_iff, toNat_ofNat_byte (by omega)]
  omega

theorem continues_add {n : Nat} (h : n < 128) : continues (UInt8.ofNat (n + 128)) = true := by
  rw [continues_iff, toNat_ofNat_byte (by omega)]
  omega

theorem group_of_lt {n : Nat} (h : n < 128) : group (UInt8.ofNat n) = n := by
  rw [group, toNat_ofNat_byte (by omega), Nat.mod_eq_of_lt h]

theorem group_add {n : Nat} (h : n < 128) : group (UInt8.ofNat (n + 128)) = n := by
  rw [group, toNat_ofNat_byte (by omega)]
  omega

theorem extent_cons {b : UInt8} {bs : List UInt8} (hb : continues b = true)
    (h : extent bs = some bs.length) : extent (b :: bs) = some (b :: bs).length := by
  rw [extent, if_pos hb, h]
  rfl

/-! ### Unsigned -/

theorem encodeUnsigned_of_lt {n : Nat} (h : n < 128) : encodeUnsigned n = [UInt8.ofNat n] := by
  rw [encodeUnsigned, if_pos h]

theorem encodeUnsigned_of_ge {n : Nat} (h : 128 ≤ n) :
    encodeUnsigned n = UInt8.ofNat (n % 128 + 128) :: encodeUnsigned (n / 128) := by
  rw [encodeUnsigned, if_neg (by omega)]

theorem extent_encodeUnsigned (n : Nat) :
    extent (encodeUnsigned n) = some (encodeUnsigned n).length := by
  induction n using Nat.strongRecOn with
  | ind n ih =>
    by_cases h : n < 128
    · rw [encodeUnsigned_of_lt h, extent, if_neg (by simp [continues_of_lt h])]
      rfl
    · rw [encodeUnsigned_of_ge (by omega)]
      exact extent_cons (continues_add (by omega)) (ih _ (by omega))

theorem groupSum_encodeUnsigned (n : Nat) : groupSum (encodeUnsigned n) = n := by
  induction n using Nat.strongRecOn with
  | ind n ih =>
    by_cases h : n < 128
    · rw [encodeUnsigned_of_lt h, groupSum, groupSum, group_of_lt h, Nat.mul_zero, Nat.add_zero]
    · rw [encodeUnsigned_of_ge (by omega), groupSum, group_add (by omega), ih _ (by omega)]
      omega

theorem length_encodeUnsigned_le {n k : Nat} (h : n < 2 ^ (7 * (k + 1))) :
    (encodeUnsigned n).length ≤ k + 1 := by
  induction k generalizing n with
  | zero =>
    rw [encodeUnsigned_of_lt (by simpa using h)]
    simp
  | succ k ih =>
    by_cases hn : n < 128
    · rw [encodeUnsigned_of_lt hn]
      simp
    · have hpow : 2 ^ (7 * (k + 1 + 1)) = 128 * 2 ^ (7 * (k + 1)) := by
        rw [Nat.mul_succ, Nat.pow_add, Nat.mul_comm]
      have hdiv := ih (n := n / 128) (by omega)
      rw [encodeUnsigned_of_ge (by omega), List.length_cons]
      omega

/-- **An unsigned number is read back** from its shortest encoding, whatever follows. -/
theorem decodeUnsigned_encodeUnsigned {n : Nat} (h : n < 2 ^ 64) (tail : List UInt8) :
    decodeUnsigned (encodeUnsigned n ++ tail)
      = some (UInt64.ofNat n, (encodeUnsigned n).length) := by
  have hlen : (encodeUnsigned n).length ≤ 9 + 1 :=
    length_encodeUnsigned_le (Nat.lt_of_lt_of_le h (Nat.pow_le_pow_right (by omega) (by omega)))
  rw [decodeUnsigned_append (extent_encodeUnsigned n) (by omega), groupSum_encodeUnsigned]

/-! ### Signed -/

theorem encodeSigned_of_mem {i : Int} (h : -64 ≤ i ∧ i < 64) :
    encodeSigned i = [UInt8.ofNat (i % 128).toNat] := by
  rw [encodeSigned, if_pos h]

theorem encodeSigned_of_not_mem {i : Int} (h : ¬(-64 ≤ i ∧ i < 64)) :
    encodeSigned i = UInt8.ofNat ((i % 128).toNat + 128) :: encodeSigned (i / 128) := by
  rw [encodeSigned, if_neg h]

theorem encodeSigned_ne_nil (i : Int) : encodeSigned i ≠ [] := by
  by_cases h : -64 ≤ i ∧ i < 64
  · rw [encodeSigned_of_mem h]
    exact List.cons_ne_nil _ _
  · rw [encodeSigned_of_not_mem h]
    exact List.cons_ne_nil _ _

/-- Induction along the encoding: a number that needs a further group, from its quotient. -/
theorem encodeSigned_induction {motive : Int → Prop}
    (last : ∀ i, -64 ≤ i ∧ i < 64 → motive i)
    (more : ∀ i, ¬(-64 ≤ i ∧ i < 64) → motive (i / 128) → motive i) (i : Int) : motive i := by
  induction hn : i.natAbs using Nat.strongRecOn generalizing i with
  | ind n ih =>
    by_cases h : -64 ≤ i ∧ i < 64
    · exact last i h
    · exact more i h (ih _ (by omega) _ rfl)

theorem extent_encodeSigned (i : Int) :
    extent (encodeSigned i) = some (encodeSigned i).length := by
  induction i using encodeSigned_induction with
  | last i h =>
    rw [encodeSigned_of_mem h, extent, if_neg (by simp [continues_of_lt (n := (i % 128).toNat)
      (by omega)])]
    rfl
  | more i h ih =>
    rw [encodeSigned_of_not_mem h]
    exact extent_cons (continues_add (by omega)) ih

theorem signedSum_encodeSigned (i : Int) : signedSum (encodeSigned i) = i := by
  induction i using encodeSigned_induction with
  | last i h =>
    have hg : group (UInt8.ofNat (i % 128).toNat) = (i % 128).toNat := group_of_lt (by omega)
    rw [encodeSigned_of_mem h, signedSum, isNegative, hg]
    by_cases hneg : 64 ≤ (i % 128).toNat
    · rw [if_pos (decide_eq_true hneg)]
      omega
    · rw [if_neg (by simpa using hneg)]
      omega
  | more i h ih =>
    rw [encodeSigned_of_not_mem h, signedSum_cons (encodeSigned_ne_nil _), group_add (by omega),
      ih]
    omega

theorem length_encodeSigned_le {i : Int} {k : Nat} (hlow : -(64 * 2 ^ (7 * k) : Nat) ≤ i)
    (hhigh : i < (64 * 2 ^ (7 * k) : Nat)) : (encodeSigned i).length ≤ k + 1 := by
  induction k generalizing i with
  | zero =>
    rw [encodeSigned_of_mem (by omega)]
    simp
  | succ k ih =>
    by_cases hi : -64 ≤ i ∧ i < 64
    · rw [encodeSigned_of_mem hi]
      simp
    · have hpow : 2 ^ (7 * (k + 1)) = 128 * 2 ^ (7 * k) := by
        rw [Nat.mul_succ, Nat.pow_add, Nat.mul_comm]
      have hdiv := ih (i := i / 128) (by omega) (by omega)
      rw [encodeSigned_of_not_mem hi, List.length_cons]
      omega

/-- **A signed number is read back** from its shortest encoding, whatever follows. -/
theorem decodeSigned_encodeSigned (v : Int64) (tail : List UInt8) :
    decodeSigned (encodeSigned v.toInt ++ tail)
      = some (v, (encodeSigned v.toInt).length) := by
  have hlow := v.le_toInt
  have hhigh := v.toInt_lt
  have hlen : (encodeSigned v.toInt).length ≤ 9 + 1 :=
    length_encodeSigned_le (by omega) (by omega)
  rw [decodeSigned_append (extent_encodeSigned _) (by omega), signedSum_encodeSigned,
    Int64.ofInt_toInt]

end ElfUnwind.Leb128

/-! ## As reads -/

namespace ElfUnwind.Read

theorem takes_uleb128 (offset : Nat) {n : Nat} (h : n < 2 ^ 64) :
    uleb128.Takes offset (Leb128.encodeUnsigned n) (UInt64.ofNat n) := by
  intro tail
  simp only [uleb128, Leb128.decodeUnsigned_encodeUnsigned h, Span.drop, List.drop_left]

theorem takes_uleb128_toNat (offset : Nat) (v : UInt64) :
    uleb128.Takes offset (Leb128.encodeUnsigned v.toNat) v := by
  have := takes_uleb128 offset v.toNat_lt
  rwa [UInt64.ofNat_toNat] at this

theorem takes_sleb128 (offset : Nat) (v : Int64) :
    sleb128.Takes offset (Leb128.encodeSigned v.toInt) v := by
  intro tail
  simp only [sleb128, Leb128.decodeSigned_encodeSigned, Span.drop, List.drop_left]

variable {record : Nat}

/-- A number that is read off a scan of the bytes is taken with the bytes of that scan. -/
theorem forward_of_scan {α : Type} {r : Read α} (value : Leb128.Scan → α)
    (hnone : ∀ s, Leb128.scan 0 s.bytes = none → r s = .error (short 1 s))
    (hsome : ∀ s t, Leb128.scan 0 s.bytes = some t → r s = .ok (value t, s.drop t.used)) :
    Forward record r where
  takes := by
    intro s u a hr
    cases hscan : Leb128.scan 0 s.bytes with
    | none =>
      rw [hnone s hscan] at hr
      cases hr
    | some t =>
      rw [hsome s t hscan] at hr
      cases hr
      refine ⟨s.bytes.take t.used, (List.take_append_drop t.used s.bytes).symm, fun tail ↦ ?_⟩
      have hlen : (s.bytes.take t.used).length = t.used := by
        rw [List.length_take, Nat.min_eq_left (Leb128.used_le hscan)]
      rw [hsome _ t (Leb128.scan_take_append hscan tail), Span.drop, List.drop_left' hlen, hlen]
  fails := by
    intro s e hr
    cases hscan : Leb128.scan 0 s.bytes with
    | none =>
      rw [hnone s hscan] at hr
      cases hr
      exact Nat.le_refl _
    | some t =>
      rw [hsome s t hscan] at hr
      cases hr

theorem forward_uleb128 : Forward record uleb128 :=
  forward_of_scan Leb128.Scan.bits
    (fun s h ↦ by simp only [uleb128, Leb128.decodeUnsigned, h, Option.map_none])
    (fun s t h ↦ by simp only [uleb128, Leb128.decodeUnsigned, h, Option.map_some])

theorem forward_sleb128 : Forward record sleb128 :=
  forward_of_scan Leb128.Scan.signed
    (fun s h ↦ by simp only [sleb128, Leb128.decodeSigned, h, Option.map_none])
    (fun s t h ↦ by simp only [sleb128, Leb128.decodeSigned, h, Option.map_some])

end ElfUnwind.Read
