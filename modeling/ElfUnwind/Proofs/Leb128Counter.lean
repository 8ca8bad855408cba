import ElfUnwind.Proofs.Leb128RoundTrip
import ElfUnwind.Proofs.Leb128Sums

/-!
# The count of the shift in LEB128 numbers

Nothing bounds the length of an encoding, and every byte counts the shift on by seven, also when it
has long left the bits of the number. Its 32 bits hold the count for `countable` bytes, some 613
millions. Up to there both readings are exact: bits from the 64th on are dropped. Behind, the count
starts over, and groups are put into the number again, the one with index `i` at `place i`
(`decode_countable_iff`). So a number that is padded to such a length is read as another one
(`decode_startsOver`).
-/

namespace ElfUnwind.Leb128

variable {bytes : List UInt8} {b : UInt8} {r : Scan} {j n s : ℕ}

/-! ## Counting -/

/-- How many bytes decoding looks at: those of the encoding, or all where it does not end. -/
def lookedAt (bytes : List UInt8) : ℕ := (extent bytes).getD bytes.length

/-- For how many bytes the shift can be counted. -/
def countable : ℕ := (UInt32.size - 1) / 7

/-- The shift behind one more group, unless the count leaves its bits. -/
def nextShift? (shift : UInt32) : Option UInt32 :=
  if shift ≤ shift + 7 then some (shift + 7) else none

/-- Reads groups like `scan`, and gives up as soon as the count of the shift leaves its bits. -/
def scanChecked (shift : UInt32) : List UInt8 → Option (Option Scan)
  | [] => some none
  | b :: bs =>
    (nextShift? shift).bind fun next ↦
      if continues b then
        (scanChecked next bs).map fun found ↦
          found.map fun s ↦ { s with bits := placed shift b ||| s.bits, used := s.used + 1 }
      else
        some (some { bits := placed shift b, last := b, shift := next, used := 1 })

theorem lookedAt_cons_of_continues (hb : continues b = true) (bs : List UInt8) :
    lookedAt (b :: bs) = lookedAt bs + 1 := by
  rw [lookedAt, lookedAt, extent, if_pos hb]
  cases extent bs <;> rfl

theorem lookedAt_cons_of_not_continues (hb : ¬continues b = true) (bs : List UInt8) :
    lookedAt (b :: bs) = 1 := by
  rw [lookedAt, extent, if_neg hb, Option.getD_some]

theorem lookedAt_of_scan {shift : UInt32} (h : scan shift bytes = some r) :
    lookedAt bytes = r.used := by
  rw [lookedAt, ← scan_used shift, h, Option.map_some, Option.getD_some]

theorem ofNat_add_seven (s : ℕ) : UInt32.ofNat s + 7 = UInt32.ofNat (s + 7) := by
  apply UInt32.toNat_inj.mp
  simp [UInt32.toNat_add]

theorem nextShift?_ofNat (hs : s < 2 ^ 32) :
    nextShift? (UInt32.ofNat s) =
      if s + 7 < 2 ^ 32 then some (UInt32.ofNat (s + 7)) else none := by
  have hle : UInt32.ofNat s ≤ UInt32.ofNat (s + 7) ↔ s + 7 < 2 ^ 32 := by
    rw [UInt32.le_iff_toNat_le, UInt32.toNat_ofNat_of_lt' hs, UInt32.toNat_ofNat']
    omega
  rw [nextShift?, ofNat_add_seven]
  simp only [hle]

/-- The count is given up exactly if all bytes that are looked at do not fit it. -/
theorem scanChecked_ofNat (hs : s < 2 ^ 32) (bytes : List UInt8) :
    scanChecked (UInt32.ofNat s) bytes =
      if s + 7 * lookedAt bytes < 2 ^ 32 then some (scan (UInt32.ofNat s) bytes) else none := by
  induction bytes generalizing s with
  | nil =>
    have hnil : lookedAt [] = 0 := rfl
    rw [scanChecked, scan, hnil, Nat.mul_zero, Nat.add_zero, if_pos hs]
  | cons b bs ih =>
    rw [scanChecked, nextShift?_ofNat hs, scan, ofNat_add_seven]
    by_cases hnext : s + 7 < 2 ^ 32
    · rw [if_pos hnext, Option.bind_some, ih hnext]
      by_cases hb : continues b = true
      · rw [if_pos hb, if_pos hb, lookedAt_cons_of_continues hb]
        have hcount : s + 7 + 7 * lookedAt bs = s + 7 * (lookedAt bs + 1) := by omega
        rw [hcount]
        split <;> rfl
      · rw [if_neg hb, if_neg hb, lookedAt_cons_of_not_continues hb, if_pos hnext]
    · have hpos : 1 ≤ lookedAt (b :: bs) := by
        by_cases hb : continues b = true
        · rw [lookedAt_cons_of_continues hb]
          exact Nat.le_add_left 1 _
        · rw [lookedAt_cons_of_not_continues hb]
      rw [if_neg hnext, Option.bind_none, if_neg (by omega)]

theorem lt_iff_le_countable : 7 * n < 2 ^ 32 ↔ n ≤ countable := by
  rw [countable, UInt32.size]
  omega

theorem scanChecked_zero (bytes : List UInt8) :
    scanChecked 0 bytes = if lookedAt bytes ≤ countable then some (scan 0 bytes) else none := by
  have hchecked := scanChecked_ofNat (s := 0) (by decide) bytes
  simp only [Nat.zero_add, lt_iff_le_countable] at hchecked
  exact hchecked

/-! ## Up to the count -/

/-- The sum of the groups of the encoding at the front, cut to 64 bits, and how many bytes it
takes. -/
def exactUnsigned (bytes : List UInt8) : Option (UInt64 × ℕ) :=
  (extent bytes).map fun n ↦ (UInt64.ofNat (groupSum (bytes.take n)), n)

/-- The signed sum of the groups, cut to 64 bits, and how many bytes they take. -/
def exactSigned (bytes : List UInt8) : Option (Int64 × ℕ) :=
  (extent bytes).map fun n ↦ (Int64.ofInt (signedSum (bytes.take n)), n)

/-- While the shift is counted in full, a scan has the sums of the groups that it has used. -/
theorem scan_exact (h : scan 0 bytes = some r) (hle : lookedAt bytes ≤ countable) :
    r.bits = UInt64.ofNat (groupSum (bytes.take r.used)) ∧
      r.signed = Int64.ofInt (signedSum (bytes.take r.used)) := by
  obtain ⟨hfront, hlength⟩ := scan_take_used h
  have hcount : 7 * (bytes.take r.used).length < 2 ^ 32 := by
    rwa [hlength, lt_iff_le_countable, ← lookedAt_of_scan h]
  have hbits := scan_bits (s := 0) (by rwa [Nat.zero_add]) hfront
  have hsigned := Scan.signed_eq hcount hfront
  rw [List.take_take, Nat.min_self] at hbits hsigned
  refine ⟨UInt64.toNat_inj.mp ?_, hsigned⟩
  rw [hbits, Nat.pow_zero, Nat.one_mul, UInt64.toNat_ofNat']

theorem decodeUnsigned_eq_exactUnsigned (hle : lookedAt bytes ≤ countable) :
    decodeUnsigned bytes = exactUnsigned bytes := by
  rw [decodeUnsigned, exactUnsigned, ← scan_used 0 bytes, Option.map_map]
  refine Option.map_congr fun r hr ↦ ?_
  rw [Function.comp_apply, (scan_exact hr hle).1]

theorem decodeSigned_eq_exactSigned (hle : lookedAt bytes ≤ countable) :
    decodeSigned bytes = exactSigned bytes := by
  rw [decodeSigned, exactSigned, ← scan_used 0 bytes, Option.map_map]
  refine Option.map_congr fun r hr ↦ ?_
  rw [Function.comp_apply, (scan_exact hr hle).2]

/-! ## The bits of a number of any length -/

/-- Where the group of the `i`-th byte is put: the shift as its 32 bits count it. -/
def place (i : ℕ) : ℕ := 7 * i % UInt32.size

/-- Whether one of the first `n` groups puts a bit at `j`. -/
def HasBit (bytes : List UInt8) (n j : ℕ) : Prop :=
  ∃ i < n, place i ≤ j ∧ (group (bytes.getD i 0)).testBit (j - place i) = true

theorem ofNat_mod_size (s : ℕ) : UInt32.ofNat (s % UInt32.size) = UInt32.ofNat s := by
  apply UInt32.toNat_inj.mp
  simp

theorem testBit_placed (hj : j < 64) :
    (placed (UInt32.ofNat s) b).toNat.testBit j = true ↔
      s % UInt32.size ≤ j ∧ (group b).testBit (j - s % UInt32.size) = true := by
  have hlt : s % UInt32.size < 2 ^ 32 := Nat.mod_lt s (by decide)
  rw [← ofNat_mod_size, toNat_placed hlt, Nat.testBit_mod_two_pow, Nat.testBit_two_pow_mul]
  simp [hj]

/-- What was placed before is kept, so each group adds its own bits. -/
theorem testBit_scan (h : scan (UInt32.ofNat s) bytes = some r) (hj : j < 64) :
    r.bits.toNat.testBit j = true ↔
      ∃ i < r.used, (s + 7 * i) % UInt32.size ≤ j ∧
        (group (bytes.getD i 0)).testBit (j - (s + 7 * i) % UInt32.size) = true := by
  induction bytes generalizing s r with
  | nil => simp [scan] at h
  | cons b bs ih =>
    rw [scan, ofNat_add_seven] at h
    split at h
    · obtain ⟨t, ht, rfl⟩ := Option.map_eq_some_iff.mp h
      have hnext : ∀ i, s + 7 + 7 * i = s + 7 * (i + 1) := fun i ↦ by omega
      simp only [UInt64.toNat_or, Nat.testBit_or, Bool.or_eq_true, testBit_placed hj, ih ht,
        Nat.exists_lt_succ_left, List.getD_cons_zero, List.getD_cons_succ, Nat.mul_zero,
        Nat.add_zero, hnext]
    · cases h
      simp [testBit_placed hj]

theorem testBit_scan_zero (h : scan 0 bytes = some r) (hj : j < 64) :
    r.bits.toNat.testBit j = true ↔ HasBit bytes r.used j := by
  have hbits := testBit_scan (s := 0) h hj
  simp only [Nat.zero_add] at hbits
  exact hbits

theorem testBit_signFill (hj : j < 64) :
    (signFill (UInt32.ofNat s)).toNat.testBit j = true ↔ s % UInt32.size ≤ j := by
  have hmod : (UInt32.ofNat s).toNat = s % UInt32.size := UInt32.toNat_ofNat'
  by_cases hfill : s % UInt32.size < 64
  · have hsplit : 2 ^ 64 - 2 ^ (s % UInt32.size)
        = 2 ^ (s % UInt32.size) * (2 ^ (64 - s % UInt32.size) - 1) := by
      rw [Nat.mul_sub, Nat.mul_one, ← Nat.pow_add, Nat.add_sub_cancel' hfill.le]
    rw [← ofNat_mod_size, toNat_signFill hfill, hsplit, Nat.testBit_two_pow_mul,
      Nat.testBit_two_pow_sub_one, Bool.and_eq_true, decide_eq_true_iff, decide_eq_true_iff]
    omega
  · have hout : ¬UInt32.ofNat s < 64 := by rwa [UInt32.lt_iff_toNat_lt, hmod]
    rw [signFill, if_neg hout]
    exact iff_of_false (by simp) (by omega)

theorem getD_of_scan (h : scan 0 bytes = some r) : bytes.getD (r.used - 1) 0 = r.last := by
  have hlast := scan_last h
  have hpos : 0 < r.used := extent_pos (by rw [← scan_used 0, h, Option.map_some])
  rw [List.getLast?_eq_getElem?, List.length_take_of_le (used_le h), List.getElem?_take_of_lt
    (Nat.sub_one_lt_of_lt hpos)] at hlast
  rw [List.getD_eq_getElem?_getD, hlast, Option.getD_some]

theorem testBit_signed (h : scan 0 bytes = some r) (hj : j < 64) :
    r.signed.toUInt64.toNat.testBit j = true ↔
      HasBit bytes r.used j ∨
        place r.used ≤ j ∧ isNegative (bytes.getD (r.used - 1) 0) = true := by
  have hshift := scan_shift (s := 0) h
  rw [Nat.zero_add] at hshift
  rw [getD_of_scan h, Scan.signed, sign_bit]
  by_cases hneg : isNegative r.last = true
  · rw [if_pos hneg, UInt64.toUInt64_toInt64, UInt64.toNat_or, Nat.testBit_or, Bool.or_eq_true,
      testBit_scan_zero h hj, hshift, testBit_signFill hj]
    simp [hneg, place]
  · rw [if_neg hneg, UInt64.toUInt64_toInt64, testBit_scan_zero h hj]
    simp [hneg]

/-- **The shift of a LEB128 number** can be counted exactly if at most `countable` bytes are looked
at, and then the numbers read are the sums of the groups, cut to 64 bits. For any number of bytes
the same bytes are taken, and a bit is set in the number exactly if a group has it where the shift
puts the group as its 32 bits count it; in a signed number also if the last group is negative and
the shift behind it is not above the bit. -/
theorem decode_countable_iff (bytes : List UInt8) :
    (scanChecked 0 bytes = none ↔ countable < lookedAt bytes) ∧
      (lookedAt bytes ≤ countable →
        scanChecked 0 bytes = some (scan 0 bytes) ∧
          decodeUnsigned bytes = exactUnsigned bytes ∧ decodeSigned bytes = exactSigned bytes) ∧
      ((decodeUnsigned bytes).map Prod.snd = extent bytes ∧
        (decodeSigned bytes).map Prod.snd = extent bytes) ∧
      (∀ value n, decodeUnsigned bytes = some (value, n) →
        ∀ j < 64, value.toNat.testBit j = true ↔ HasBit bytes n j) ∧
      ∀ value n, decodeSigned bytes = some (value, n) →
        ∀ j < 64, value.toUInt64.toNat.testBit j = true ↔
          HasBit bytes n j ∨ place n ≤ j ∧ isNegative (bytes.getD (n - 1) 0) = true := by
  have hused : (decodeUnsigned bytes).map Prod.snd = extent bytes := by
    rw [← scan_used 0 bytes, decodeUnsigned, Option.map_map]
    rfl
  refine ⟨?_, fun hle ↦ ?_, ⟨hused, (decodeSigned_used bytes).trans hused⟩, ?_, ?_⟩
  · rw [scanChecked_zero, ← Nat.not_le]
    simp
  · rw [scanChecked_zero, if_pos hle]
    exact ⟨rfl, decodeUnsigned_eq_exactUnsigned hle, decodeSigned_eq_exactSigned hle⟩
  · intro value n hdecode j hj
    obtain ⟨r, hscan, hr⟩ := Option.map_eq_some_iff.mp hdecode
    cases hr
    exact testBit_scan_zero hscan hj
  · intro value n hdecode j hj
    obtain ⟨r, hscan, hr⟩ := Option.map_eq_some_iff.mp hdecode
    cases hr
    exact testBit_signed hscan hj

theorem decode_countable_iff_overlong :
    lookedAt overlong ≤ countable ∧ scanChecked 0 overlong = some (scan 0 overlong) ∧
      decodeUnsigned overlong = exactUnsigned overlong ∧
      decodeSigned overlong = exactSigned overlong ∧
      decodeUnsigned overlong = some (-1, 12) ∧ HasBit overlong 12 63 ∧
      decodeSigned overlong = some (-1, 12) ∧ isNegative (overlong.getD 11 0) = false := by
  have hle : lookedAt overlong ≤ countable := by decide
  have hunsigned : decodeUnsigned overlong = some (-1, 12) := by decide
  have hsigned : decodeSigned overlong = some (-1, 12) := by decide
  obtain ⟨-, hexact, -, hbits, -⟩ := decode_countable_iff overlong
  obtain ⟨hchecked, hunsignedExact, hsignedExact⟩ := hexact hle
  have hhigh : HasBit overlong 12 63 := (hbits (-1) 12 hunsigned 63 (by decide)).mp (by decide)
  exact ⟨hle, hchecked, hunsignedExact, hsignedExact, hunsigned, hhigh, hsigned, by decide⟩

/-! ## Behind the count -/

/-- `n` groups without a bit, and the group of `b` behind them. -/
def padded (n : ℕ) (b : UInt8) : List UInt8 := List.replicate n 0x80 ++ [b]

theorem padded_succ (n : ℕ) (b : UInt8) : padded (n + 1) b = 0x80 :: padded n b := by
  rw [padded, List.replicate_succ, List.cons_append, padded]

theorem placed_pad (shift : UInt32) : placed shift 0x80 = 0 := by
  have hgroup : ((0x80 : UInt8) &&& 0x7f).toUInt64 = 0 := by decide
  rw [placed, hgroup, UInt64.zero_shiftLeft, ite_self]

theorem scan_padded (hb : ¬continues b = true) :
    scan (UInt32.ofNat s) (padded n b) =
      some { bits := placed (UInt32.ofNat (s + 7 * n)) b, last := b,
             shift := UInt32.ofNat (s + 7 * (n + 1)), used := n + 1 } := by
  induction n generalizing s with
  | zero =>
    rw [padded, List.replicate_zero, List.nil_append, scan, if_neg hb, ofNat_add_seven]
    rfl
  | succ n ih =>
    have hpad : continues 0x80 = true := by decide
    have hnext : ∀ m, s + 7 + 7 * m = s + 7 * (m + 1) := fun m ↦ by omega
    rw [padded_succ, scan, if_pos hpad, ofNat_add_seven, ih, Option.map_some, placed_pad,
      UInt64.zero_or, hnext, hnext]

theorem extent_padded (hb : ¬continues b = true) :
    extent (padded n b) = some (padded n b).length ∧ (padded n b).length = n + 1 := by
  have hlength : (padded n b).length = n + 1 := by
    rw [padded, List.length_append, List.length_replicate, List.length_singleton]
  rw [← scan_used (UInt32.ofNat 0), scan_padded hb, Option.map_some, hlength]
  exact ⟨rfl, rfl⟩

theorem lookedAt_padded (hb : ¬continues b = true) : lookedAt (padded n b) = n + 1 := by
  obtain ⟨hend, hlength⟩ := extent_padded (n := n) hb
  rw [lookedAt, hend, Option.getD_some, hlength]

theorem groupSum_padded (n : ℕ) (b : UInt8) : groupSum (padded n b) = 2 ^ (7 * n) * group b := by
  induction n with
  | zero =>
    rw [padded, List.replicate_zero, List.nil_append, groupSum, groupSum]
    omega
  | succ n ih =>
    have hpad : group 0x80 = 0 := by decide
    rw [padded_succ, groupSum, hpad, ih, Nat.mul_succ, pow_add]
    ring

theorem signedSum_padded (n : ℕ) (b : UInt8) :
    signedSum (padded n b) = 2 ^ (7 * n) * signedSum [b] := by
  induction n with
  | zero => rw [padded, List.replicate_zero, List.nil_append, Nat.mul_zero, pow_zero, one_mul]
  | succ n ih =>
    have hpad : group 0x80 = 0 := by decide
    have hne : padded n b ≠ [] := List.append_ne_nil_of_right_ne_nil _ (List.cons_ne_nil _ _)
    rw [padded_succ, signedSum_cons hne, hpad, ih, Nat.mul_succ, pow_add]
    push_cast
    ring

/-- Behind ten groups without a bit nothing is left of a group. -/
theorem exact_padded (hn : 10 ≤ n) (hb : ¬continues b = true) :
    exactUnsigned (padded n b) = some (0, n + 1) ∧ exactSigned (padded n b) = some (0, n + 1) := by
  obtain ⟨hend, hlength⟩ := extent_padded (n := n) hb
  obtain ⟨m, hm⟩ : ∃ m, 7 * n = 64 + m := ⟨7 * n - 64, by omega⟩
  have hunsigned : UInt64.ofNat (groupSum (padded n b)) = 0 := by
    apply UInt64.toNat_inj.mp
    rw [groupSum_padded, hm, pow_add, mul_assoc, UInt64.toNat_ofNat', Nat.mul_mod_right]
    rfl
  have hsigned : Int64.ofInt (signedSum (padded n b)) = 0 := by
    apply Int64.toInt_inj.mp
    rw [signedSum_padded, hm, pow_add, mul_assoc, Int64.toInt_ofInt]
    exact Int.mul_bmod_right _ _
  rw [exactUnsigned, exactSigned, hend, Option.map_some, Option.map_some, List.take_length,
    hunsigned, hsigned, hlength]
  exact ⟨rfl, rfl⟩

theorem scanChecked_padded (hn : countable ≤ n) (hb : ¬continues b = true) :
    scanChecked 0 (padded n b) = none := by
  rw [scanChecked_zero, lookedAt_padded hb, if_neg (by omega)]

theorem decodeUnsigned_padded (hb : ¬continues b = true) :
    decodeUnsigned (padded n b) = some (placed (UInt32.ofNat (7 * n)) b, n + 1) := by
  have hscan := scan_padded (s := 0) (n := n) hb
  rw [Nat.zero_add] at hscan
  exact congrArg (Option.map fun r ↦ (r.bits, r.used)) hscan

theorem decodeSigned_padded (hb : ¬continues b = true) (hneg : isNegative b = true) :
    decodeSigned (padded n b) =
      some ((placed (UInt32.ofNat (7 * n)) b ||| signFill (UInt32.ofNat (7 * (n + 1)))).toInt64,
        n + 1) := by
  have hscan := scan_padded (s := 0) (n := n) hb
  rw [Nat.zero_add, Nat.zero_add] at hscan
  have hdecode := congrArg (Option.map fun r ↦ (r.signed, r.used)) hscan
  rw [Option.map_some, Scan.signed, sign_bit, if_pos hneg] at hdecode
  exact hdecode

/-- Two encodings of which nothing is left below the 64th bit. The shift starts over at the last
group of the first and at the sign of the second, and other numbers are read. -/
theorem decode_startsOver :
    (scanChecked 0 (padded 613566757 0x01) = none ∧
        exactUnsigned (padded 613566757 0x01) = some (0, 613566758) ∧
        decodeUnsigned (padded 613566757 0x01) = some (8, 613566758)) ∧
      scanChecked 0 (padded 613566756 0x40) = none ∧
        exactSigned (padded 613566756 0x40) = some (0, 613566757) ∧
        decodeSigned (padded 613566756 0x40) = some (-8, 613566757) := by
  have hone : ¬continues 0x01 = true := by decide
  have hsign : ¬continues 0x40 = true := by decide
  have hplaced : placed (UInt32.ofNat (7 * 613566757)) 0x01 = 8 := by decide
  have hsigned : (placed (UInt32.ofNat (7 * 613566756)) 0x40
      ||| signFill (UInt32.ofNat (7 * (613566756 + 1)))).toInt64 = -8 := by decide
  refine ⟨⟨scanChecked_padded (by decide) hone, (exact_padded (by decide) hone).1, ?_⟩,
    scanChecked_padded (by decide) hsign, (exact_padded (by decide) hsign).2, ?_⟩
  · rw [decodeUnsigned_padded hone, hplaced]
  · rw [decodeSigned_padded hsign (by decide), hsigned]

end ElfUnwind.Leb128
