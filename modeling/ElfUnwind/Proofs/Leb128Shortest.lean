import ElfUnwind.Bytes.Cursor
import ElfUnwind.Proofs.Leb128RoundTrip

/-!
# The shortest LEB128 encodings

A number has many encodings, as groups without bits may stand behind the last one that has any. The
encoders write the shortest, and `isShortest_encode` says of both of them what this comes to: the
number is read back whatever follows, no proper front of the encoding is a number, no encoding of
the number has fewer bytes, and a cursor that reads the number goes to where the encoding ends.

## Why no encoding is shorter

An encoding of `n` bytes holds `7 * n` bits, so its number is below the power of 128 that the
length of the shortest encoding is bounded by. From the tenth byte on bits are dropped, but there
the bound is no restriction: every 64-bit number is below it.
-/

namespace ElfUnwind

/-- A cursor reads what the read takes at its position, and goes on behind that. -/
theorem Cursor.read_of_takes {α : Type} {r : Read α} {c : Cursor} {front : List UInt8} {a : α}
    (h : r.Takes c.position front a) (hfront : front <+: c.data.drop c.position) :
    c.read r = .ok (a, c.seek (c.position + front.length)) := by
  obtain ⟨rest, hrest⟩ := hfront
  rw [Cursor.read_eq_ok_iff]
  refine ⟨⟨c.position + front.length, rest⟩, ?_, rfl⟩
  rw [Cursor.span, ← hrest]
  exact h rest

namespace Leb128

variable {bytes front : List UInt8} {r : Scan} {m : ℕ}

/-! ## Fronts of an encoding -/

theorem extent_append {n : ℕ} (h : extent front = some n) (more : List UInt8) :
    extent (front ++ more) = some n := by
  rw [← scan_used 0 front] at h
  obtain ⟨r, hscan, rfl⟩ := Option.map_eq_some_iff.mp h
  have hlong := scan_take_append hscan (front.drop r.used ++ more)
  rw [← List.append_assoc, List.take_append_drop] at hlong
  rw [← scan_used 0 (front ++ more), hlong, Option.map_some]

/-- An encoding ends nowhere before its last byte. -/
theorem scan_eq_none_of_isPrefix (shift : UInt32) (h : extent bytes = some bytes.length)
    (hfront : front <+: bytes) (hne : front ≠ bytes) : scan shift front = none := by
  rw [← Option.map_eq_none_iff, scan_used]
  obtain ⟨more, rfl⟩ := hfront
  by_contra hsome
  obtain ⟨n, hn⟩ := Option.ne_none_iff_exists'.mp hsome
  have hlength : n = (front ++ more).length :=
    Option.some_inj.mp ((extent_append hn more).symm.trans h)
  have hle := extent_le hn
  rw [hlength, List.length_append] at hle
  have hmore : more = [] := List.length_eq_zero_iff.mp (by omega)
  exact hne (by rw [hmore, List.append_nil])

/-! ## What fits some bytes -/

theorem exists_used_eq_succ (h : scan 0 bytes = some r) : ∃ m, r.used = m + 1 := by
  have hextent : extent bytes = some r.used := by rw [← scan_used 0 bytes, h, Option.map_some]
  exact Nat.exists_eq_succ_of_ne_zero (extent_pos hextent).ne'

theorem toNat_bits_lt (h : scan 0 bytes = some r) : r.bits.toNat < 2 ^ (7 * r.used) := by
  obtain ⟨hfront, hlength⟩ := scan_take_used h
  by_cases hten : 10 ≤ r.used
  · refine r.bits.toNat_lt.trans_le (Nat.pow_le_pow_right (by norm_num) ?_)
    exact le_trans (by norm_num) (Nat.mul_le_mul_left 7 hten)
  · have hbits := scan_bits (s := 0) (by omega) hfront
    rw [pow_zero, one_mul, List.take_take, min_self] at hbits
    calc r.bits.toNat = groupSum (bytes.take r.used) % 2 ^ 64 := hbits
      _ ≤ groupSum (bytes.take r.used) := Nat.mod_le _ _
      _ < 2 ^ (7 * (bytes.take r.used).length) := groupSum_lt _
      _ = 2 ^ (7 * r.used) := by rw [hlength]

theorem signedSum_bounds (h : bytes.length = m + 1) :
    -(64 * 2 ^ (7 * m) : ℕ) ≤ signedSum bytes ∧ signedSum bytes < (64 * 2 ^ (7 * m) : ℕ) := by
  induction bytes generalizing m with
  | nil => exact absurd h (by simp)
  | cons b bs ih =>
    have hgroup : group b < 128 := Nat.mod_lt _ (by norm_num)
    obtain rfl : bs.length = m := Nat.succ.inj h
    by_cases hbs : bs = []
    · subst hbs
      rw [signedSum, isNegative, List.length_nil]
      by_cases hneg : 64 ≤ group b
      · rw [if_pos (decide_eq_true hneg)]
        omega
      · rw [if_neg (by simpa using hneg)]
        omega
    · obtain ⟨n, hn⟩ := Nat.exists_eq_succ_of_ne_zero (mt List.length_eq_zero_iff.mp hbs)
      have hpow : 2 ^ (7 * (n + 1)) = 128 * 2 ^ (7 * n) := by
        rw [Nat.mul_succ, Nat.pow_add, Nat.mul_comm]
      obtain ⟨hlow, hhigh⟩ := ih hn
      rw [signedSum_cons hbs, hn, Nat.succ_eq_add_one, hpow]
      omega

theorem toInt_signed_bounds (h : scan 0 bytes = some r) (hused : r.used = m + 1) :
    -(64 * 2 ^ (7 * m) : ℕ) ≤ r.signed.toInt ∧ r.signed.toInt < (64 * 2 ^ (7 * m) : ℕ) := by
  obtain ⟨hfront, hlength⟩ := scan_take_used h
  by_cases hten : 9 ≤ m
  · have hpow : 2 ^ 63 ≤ 2 ^ (7 * m) :=
      Nat.pow_le_pow_right (by norm_num) (Nat.mul_le_mul_left 7 hten)
    have hlow := r.signed.le_toInt
    have hhigh := r.signed.toInt_lt
    omega
  · have hpow : 2 ^ (7 * m) ≤ 2 ^ 56 := Nat.pow_le_pow_right (by norm_num) (by omega)
    obtain ⟨hlow, hhigh⟩ := signedSum_bounds (hlength.trans hused)
    have hsigned := Scan.signed_eq (by omega) hfront
    rw [List.take_take, min_self] at hsigned
    rw [hsigned, Int64.toInt_ofInt, show Int64.size = 2 ^ 64 from rfl,
      Int.bmod_eq_of_le_mul_two (by omega) (by omega)]
    exact ⟨hlow, hhigh⟩

/-! ## The shortest encodings -/

/-- The bytes are the shortest encoding of a value for a decoder and for the read that uses it. -/
structure IsShortest {α : Type} (decode : List UInt8 → Option (α × ℕ)) (read : Read α)
    (bytes : List UInt8) (value : α) : Prop where
  /-- The value is decoded, whatever follows. -/
  decodes : ∀ rest, decode (bytes ++ rest) = some (value, bytes.length)
  /-- No proper front is decoded. -/
  cut : ∀ front, front <+: bytes → front ≠ bytes → decode front = none
  /-- Whatever is decoded to the value has as many bytes, and that many are taken of it. -/
  shortest : ∀ other length, decode other = some (value, length) →
    bytes.length ≤ length ∧ length ≤ other.length
  /-- A cursor that stands before the bytes goes behind them. -/
  advances : ∀ c : Cursor, bytes <+: c.data.drop c.position →
    c.read read = .ok (value, c.seek (c.position + bytes.length))

theorem isShortest_encodeUnsigned (v : UInt64) :
    IsShortest decodeUnsigned Read.uleb128 (encodeUnsigned v.toNat) v where
  decodes := by
    intro rest
    rw [decodeUnsigned_encodeUnsigned v.toNat_lt, UInt64.ofNat_toNat]
  cut := by
    intro front hfront hne
    rw [decodeUnsigned, scan_eq_none_of_isPrefix 0 (extent_encodeUnsigned _) hfront hne,
      Option.map_none]
  shortest := by
    intro other length hother
    obtain ⟨r, hscan, hr⟩ := Option.map_eq_some_iff.mp hother
    obtain ⟨rfl, rfl⟩ := Prod.mk.inj hr
    obtain ⟨m, hused⟩ := exists_used_eq_succ hscan
    have hlt := toNat_bits_lt hscan
    refine ⟨?_, used_le hscan⟩
    rw [hused] at hlt ⊢
    exact length_encodeUnsigned_le hlt
  advances := fun c hc ↦ Cursor.read_of_takes (Read.takes_uleb128_toNat c.position v) hc

theorem isShortest_encodeSigned (v : Int64) :
    IsShortest decodeSigned Read.sleb128 (encodeSigned v.toInt) v where
  decodes := decodeSigned_encodeSigned v
  cut := by
    intro front hfront hne
    rw [decodeSigned, scan_eq_none_of_isPrefix 0 (extent_encodeSigned _) hfront hne,
      Option.map_none]
  shortest := by
    intro other length hother
    obtain ⟨r, hscan, hr⟩ := Option.map_eq_some_iff.mp hother
    obtain ⟨rfl, rfl⟩ := Prod.mk.inj hr
    obtain ⟨m, hused⟩ := exists_used_eq_succ hscan
    obtain ⟨hlow, hhigh⟩ := toInt_signed_bounds hscan hused
    refine ⟨?_, used_le hscan⟩
    rw [hused]
    exact length_encodeSigned_le hlow hhigh
  advances := fun c hc ↦ Cursor.read_of_takes (Read.takes_sleb128 c.position v) hc

/-- **The encoders write the shortest encoding** of every 64-bit number, unsigned and signed. -/
theorem isShortest_encode :
    (∀ v : UInt64, IsShortest decodeUnsigned Read.uleb128 (encodeUnsigned v.toNat) v) ∧
      ∀ v : Int64, IsShortest decodeSigned Read.sleb128 (encodeSigned v.toInt) v :=
  ⟨isShortest_encodeUnsigned, isShortest_encodeSigned⟩

end Leb128

end ElfUnwind
