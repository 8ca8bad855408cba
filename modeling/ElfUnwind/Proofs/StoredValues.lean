import ElfUnwind.Proofs.TakenSpellings

/-!
# What each read gives

For every read of a single field, one statement says exactly when it succeeds, with which value and
what is left, and one says exactly when it fails and how. Between them they leave nothing open, and
no statement about fields needs the reads themselves any more. A value of one of the nine formats is
told by the bytes that are there (`ValueFormat.Begins`): the number of a field of fixed width,
extended by zeros or by its sign, or what LEB128 makes of the bytes.
-/

namespace ElfUnwind

namespace LittleEndian

/-- The number that `n`, stored in `width` bytes, is when its highest bit is a sign. -/
def signExtended (width n : ℕ) : ℤ :=
  if 2 * n < capacity width then n else n - capacity width

theorem two_dvd_capacity {width : ℕ} (h : 0 < width) : 2 ∣ capacity width := by
  obtain ⟨n, rfl⟩ := Nat.exists_eq_succ_of_ne_zero h.ne'
  exact Dvd.dvd.mul_right (by norm_num) (capacity n)

theorem signed_eq_signExtended {width n : ℕ} (hw : 0 < width) (hn : n < capacity width) :
    signed width n = signExtended width n := by
  obtain ⟨half, hhalf⟩ := two_dvd_capacity hw
  rw [signed, signExtended]
  split
  · exact Int.bmod_eq_of_le_mul_two (by omega) (by omega)
  · rw [← Int.sub_bmod_right]
    exact Int.bmod_eq_of_le_mul_two (by omega) (by omega)

theorem capacity_le {width : ℕ} (h : width ≤ 8) : capacity width ≤ 2 ^ 64 :=
  Nat.le_of_dvd (by norm_num) (capacity_dvd h)

end LittleEndian

/-! ## Fields -/

namespace Read

variable {s t : Span} {e : Error}

theorem byte_eq_ok_iff {b : UInt8} :
    byte s = .ok (b, t) ↔ s.bytes = b :: t.bytes ∧ t.offset = s.offset + 1 := by
  obtain ⟨offset, _ | ⟨b', bs⟩⟩ := s
  · exact iff_of_false (by rintro ⟨⟩) (by rintro ⟨⟨⟩, -⟩)
  · obtain ⟨offset', bytes⟩ := t
    simp only [byte_cons, Except.ok.injEq, Prod.mk.injEq, Span.mk.injEq, List.cons.injEq]
    tauto

theorem byte_eq_error_iff : byte s = .error e ↔ s.bytes = [] ∧ e = short 1 s := by
  obtain ⟨offset, _ | ⟨b, bs⟩⟩ := s
  · exact ⟨fun h ↦ ⟨rfl, (Except.error.inj h).symm⟩, fun h ↦ h.2 ▸ rfl⟩
  · exact iff_of_false (by rintro ⟨⟩) (by rintro ⟨⟨⟩, -⟩)

theorem bytes_eq_ok_iff {n : ℕ} {front : List UInt8} :
    bytes n s = .ok (front, t) ↔ n ≤ s.bytes.length ∧ front = s.bytes.take n ∧ t = s.drop n := by
  rcases Nat.lt_or_ge s.bytes.length n with hlt | hle
  · rw [bytes_of_gt hlt]
    exact iff_of_false (by rintro ⟨⟩) fun h ↦ absurd h.1 (Nat.not_le_of_lt hlt)
  · rw [bytes_of_le hle]
    constructor
    · rintro ⟨⟩
      exact ⟨hle, rfl, rfl⟩
    · rintro ⟨-, rfl, rfl⟩
      rfl

theorem bytes_eq_error_iff {n : ℕ} :
    bytes n s = .error e ↔ s.bytes.length < n ∧ e = short n s := by
  rcases Nat.lt_or_ge s.bytes.length n with hlt | hle
  · rw [bytes_of_gt hlt]
    exact ⟨fun h ↦ ⟨hlt, (Except.error.inj h).symm⟩, fun h ↦ h.2 ▸ rfl⟩
  · rw [bytes_of_le hle]
    exact iff_of_false (by rintro ⟨⟩) fun h ↦ absurd h.1 (Nat.not_lt_of_le hle)

/-- A field of a width that may not exist. -/
theorem fixed_eq_ok_iff {α : Type} {p : Prop} [Decidable p] {width : UInt8} {f : List UInt8 → α}
    {a : α} :
    (if p then f <$> bytes width.toNat else throw (.unsupportedWidth width) : Read α) s
        = .ok (a, t) ↔
      p ∧ width.toNat ≤ s.bytes.length ∧ a = f (s.bytes.take width.toNat) ∧
        t = s.drop width.toNat := by
  by_cases hp : p
  · rw [if_pos hp, map_eq_ok_iff, and_iff_right hp]
    simp only [bytes_eq_ok_iff]
    constructor
    · rintro ⟨front, ⟨hle, rfl, rfl⟩, rfl⟩
      exact ⟨hle, rfl, rfl⟩
    · rintro ⟨hle, rfl, rfl⟩
      exact ⟨_, ⟨hle, rfl, rfl⟩, rfl⟩
  · rw [if_neg hp]
    exact iff_of_false (by rintro ⟨⟩) fun h ↦ hp h.1

theorem fixed_eq_error_iff {α : Type} {p : Prop} [Decidable p] {width : UInt8}
    {f : List UInt8 → α} :
    (if p then f <$> bytes width.toNat else throw (.unsupportedWidth width) : Read α) s
        = .error e ↔
      ¬p ∧ e = .unsupportedWidth width ∨
        p ∧ s.bytes.length < width.toNat ∧ e = short width.toNat s := by
  by_cases hp : p
  · rw [if_pos hp, map_eq_error_iff, bytes_eq_error_iff]
    simp only [hp, not_true_eq_false, false_and, true_and, false_or]
  · rw [if_neg hp]
    simp only [hp, not_false_eq_true, true_and, false_and, or_false]
    exact ⟨fun h ↦ (Except.error.inj h).symm, fun h ↦ h ▸ rfl⟩

theorem toNat_take_lt {bs : List UInt8} {width : UInt8} (hw : isWidth width = true)
    (hle : width.toNat ≤ bs.length) :
    LittleEndian.toNat (bs.take width.toNat) < LittleEndian.capacity width.toNat ∧
      LittleEndian.toNat (bs.take width.toNat) < 2 ^ 64 := by
  have hlt := LittleEndian.toNat_lt (bs.take width.toNat)
  rw [List.length_take_of_le hle] at hlt
  exact ⟨hlt, hlt.trans_le (LittleEndian.capacity_le (isWidth_le hw))⟩

theorem unsigned_eq_ok_iff {width : UInt8} {v : UInt64} :
    unsigned width s = .ok (v, t) ↔
      isWidth width = true ∧ width.toNat ≤ s.bytes.length ∧
        v.toNat = LittleEndian.toNat (s.bytes.take width.toNat) ∧ t = s.drop width.toNat := by
  refine (fixed_eq_ok_iff (f := fun front ↦ UInt64.ofNat (LittleEndian.toNat front))).trans ?_
  refine and_congr_right fun hw ↦ and_congr_right fun hle ↦ and_congr_left fun _ ↦ ?_
  rw [← UInt64.toNat_inj, UInt64.toNat_ofNat_of_lt' (toNat_take_lt hw hle).2]

theorem unsigned_eq_error_iff {width : UInt8} :
    unsigned width s = .error e ↔
      ¬isWidth width = true ∧ e = .unsupportedWidth width ∨
        isWidth width = true ∧ s.bytes.length < width.toNat ∧ e = short width.toNat s :=
  fixed_eq_error_iff (f := fun front ↦ UInt64.ofNat (LittleEndian.toNat front))

theorem signed_eq_ok_iff {width : UInt8} {v : Int64} :
    signed width s = .ok (v, t) ↔
      (isWidth width = true ∧ width ≠ 1) ∧ width.toNat ≤ s.bytes.length ∧
        v.toInt = LittleEndian.signExtended width.toNat
          (LittleEndian.toNat (s.bytes.take width.toNat)) ∧ t = s.drop width.toNat := by
  refine (fixed_eq_ok_iff (f := fun front ↦
    Int64.ofInt (LittleEndian.signed width.toNat (LittleEndian.toNat front)))).trans ?_
  refine and_congr_right fun hw ↦ and_congr_right fun hle ↦ and_congr_left fun _ ↦ ?_
  obtain ⟨hlt, -⟩ := toNat_take_lt hw.1 hle
  have hcapacity := LittleEndian.capacity_le (isWidth_le hw.1)
  rw [LittleEndian.signed_eq_signExtended (isWidth_pos hw.1) hlt, ← Int64.toInt_inj,
    Int64.toInt_ofInt_of_le]
  all_goals rw [LittleEndian.signExtended]; split <;> omega

theorem signed_eq_error_iff {width : UInt8} :
    signed width s = .error e ↔
      ¬(isWidth width = true ∧ width ≠ 1) ∧ e = .unsupportedWidth width ∨
        (isWidth width = true ∧ width ≠ 1) ∧ s.bytes.length < width.toNat ∧
          e = short width.toNat s :=
  fixed_eq_error_iff (f := fun front ↦
    Int64.ofInt (LittleEndian.signed width.toNat (LittleEndian.toNat front)))

theorem zeroTerminated_eq_ok_iff {text : List UInt8} :
    zeroTerminated s = .ok (text, t) ↔
      (∀ b ∈ text, b ≠ 0) ∧ s.bytes = text ++ [0] ++ t.bytes ∧
        t.offset = s.offset + (text.length + 1) := by
  constructor
  · intro h
    obtain ⟨hne, hs⟩ := bytes_of_zeroTerminated h
    have htakes := takes_zeroTerminated s.offset hne t.bytes
    rw [List.append_assoc, List.singleton_append, ← hs] at htakes
    have ht := h.symm.trans htakes
    injection ht with ht
    refine ⟨hne, by rw [hs, List.append_cons], ?_⟩
    rw [(Prod.mk.inj ht).2, List.length_append, List.length_singleton]
  · rintro ⟨hne, hs, ht⟩
    have htakes := takes_zeroTerminated s.offset hne t.bytes
    rw [← hs, List.length_append, List.length_singleton, ← ht] at htakes
    exact htakes

theorem zeroTerminated_eq_error_iff :
    zeroTerminated s = .error e ↔
      (∀ b ∈ s.bytes, b ≠ 0) ∧ e = short (s.bytes.length + 1) s := by
  by_cases hall : ∀ b ∈ s.bytes, b ≠ 0
  · have hself : s.bytes.takeWhile (· ≠ 0) = s.bytes :=
      List.takeWhile_eq_self_iff.mpr fun b hb ↦ decide_eq_true (hall b hb)
    rw [zeroTerminated, and_iff_right hall]
    simp only [hself, lt_irrefl, if_false]
    exact ⟨fun h ↦ (Except.error.inj h).symm, fun h ↦ h ▸ rfl⟩
  · refine iff_of_false (fun h ↦ hall fun b hb ↦ ?_) fun h ↦ hall h.1
    simp only [zeroTerminated] at h
    split at h
    · cases h
    · rename_i hnot
      have hself := (List.takeWhile_prefix (l := s.bytes) (· ≠ 0)).eq_of_length_le (not_lt.mp hnot)
      exact of_decide_eq_true (List.takeWhile_eq_self_iff.mp hself b hb)

theorem uleb128_eq_ok_iff {v : UInt64} :
    uleb128 s = .ok (v, t) ↔
      ∃ used, Leb128.decodeUnsigned s.bytes = some (v, used) ∧ t = s.drop used := by
  cases h : Leb128.decodeUnsigned s.bytes with
  | none => simp [uleb128, h]
  | some p => simp [uleb128, h, Prod.ext_iff, eq_comm, and_assoc]

theorem uleb128_eq_error_iff :
    uleb128 s = .error e ↔ Leb128.decodeUnsigned s.bytes = none ∧ e = short 1 s := by
  cases h : Leb128.decodeUnsigned s.bytes with
  | none => simp [uleb128, h, eq_comm]
  | some p => simp [uleb128, h]

theorem sleb128_eq_ok_iff {v : Int64} :
    sleb128 s = .ok (v, t) ↔
      ∃ used, Leb128.decodeSigned s.bytes = some (v, used) ∧ t = s.drop used := by
  cases h : Leb128.decodeSigned s.bytes with
  | none => simp [sleb128, h]
  | some p => simp [sleb128, h, Prod.ext_iff, eq_comm, and_assoc]

theorem sleb128_eq_error_iff :
    sleb128 s = .error e ↔ Leb128.decodeSigned s.bytes = none ∧ e = short 1 s := by
  cases h : Leb128.decodeSigned s.bytes with
  | none => simp [sleb128, h, eq_comm]
  | some p => simp [sleb128, h]

end Read

/-! ## Values of the nine formats -/

theorem Leb128.scan_eq_none_iff {shift : UInt32} {bytes : List UInt8} :
    scan shift bytes = none ↔ ∀ b ∈ bytes, continues b = true := by
  rw [← extent_eq_none_iff, ← scan_used shift, Option.map_eq_none_iff]

namespace ValueFormat

variable {addressSize : UInt8} {value : UInt64} {format : ValueFormat} {s t : Span} {e : Error}

/-- The bytes begin with a value of the format that takes `used` of them. -/
def Begins (addressSize : UInt8) (bytes : List UInt8) (value : UInt64) (used : ℕ)
    (format : ValueFormat) : Prop :=
  match format.width? addressSize with
  | some width =>
    let n := LittleEndian.toNat (bytes.take width)
    used = width ∧ width ≤ bytes.length ∧
      if format.isSigned then value.toInt64.toInt = LittleEndian.signExtended width n
      else value.toNat = n
  | none =>
    if format.isSigned then Leb128.decodeSigned bytes = some (value.toInt64, used)
    else Leb128.decodeUnsigned bytes = some (value, used)

/-- The bytes end before a value of the format does. -/
def IsCutOff (addressSize : UInt8) (bytes : List UInt8) (format : ValueFormat) : Prop :=
  match format.width? addressSize with
  | some width => bytes.length < width
  | none => ∀ b ∈ bytes, Leb128.continues b = true

/-- How many bytes are missed when a value is cut off; of a LEB128 number only the next one is. -/
def wanted (addressSize : UInt8) (format : ValueFormat) : ℕ := (format.width? addressSize).getD 1

/-- Whether there are fields for the format: addresses may have a size that no field has. -/
def HasFields (addressSize : UInt8) (format : ValueFormat) : Prop :=
  format = absptr → Read.isWidth addressSize = true

theorem hasFields_of_ne (h : format ≠ absptr) : format.HasFields addressSize :=
  fun habsptr ↦ absurd habsptr h

theorem hasFields_iff {width : UInt8} (h : format ≠ absptr) (hw : Read.isWidth width = true) :
    format.HasFields addressSize ↔ Read.isWidth width = true :=
  iff_of_true (hasFields_of_ne h) hw

theorem hasFields_absptr_iff : absptr.HasFields addressSize ↔ Read.isWidth addressSize = true :=
  forall_prop_of_true rfl

/-- A signed number is given as the number with the same bits. -/
theorem map_toUInt64_eq_ok_iff {r : Read Int64} :
    (Int64.toUInt64 <$> r) s = .ok (value, t) ↔ r s = .ok (value.toInt64, t) := by
  rw [Read.map_eq_ok_iff]
  constructor
  · rintro ⟨v, hr, rfl⟩
    rwa [Int64.toInt64_toUInt64]
  · intro hr
    exact ⟨_, hr, (UInt64.toUInt64_toInt64 value).symm⟩

theorem begins_unsigned_iff {width used : ℕ} {bytes : List UInt8}
    (hwidth : format.width? addressSize = some width) (hsigned : format.isSigned = false) :
    format.Begins addressSize bytes value used ↔
      used = width ∧ width ≤ bytes.length ∧
        value.toNat = LittleEndian.toNat (bytes.take width) := by
  simp only [Begins, hwidth, hsigned, Bool.false_eq_true, if_false]

theorem begins_signed_iff {width used : ℕ} {bytes : List UInt8}
    (hwidth : format.width? addressSize = some width) (hsigned : format.isSigned = true) :
    format.Begins addressSize bytes value used ↔
      used = width ∧ width ≤ bytes.length ∧ value.toInt64.toInt =
        LittleEndian.signExtended width (LittleEndian.toNat (bytes.take width)) := by
  simp only [Begins, hwidth, hsigned, if_true]

theorem unsigned_eq_ok_iff {width : UInt8}
    (hfields : format.HasFields addressSize ↔ Read.isWidth width = true)
    (hwidth : format.width? addressSize = some width.toNat) (hsigned : format.isSigned = false) :
    Read.unsigned width s = .ok (value, t) ↔
      format.HasFields addressSize ∧
        ∃ used, format.Begins addressSize s.bytes value used ∧ t = s.drop used := by
  simp only [Read.unsigned_eq_ok_iff, hfields, begins_unsigned_iff hwidth hsigned, and_assoc,
    exists_eq_left]

theorem signed_eq_ok_iff {width : UInt8} (hfields : format.HasFields addressSize)
    (hw : Read.isWidth width = true ∧ width ≠ 1)
    (hwidth : format.width? addressSize = some width.toNat) (hsigned : format.isSigned = true) :
    (Int64.toUInt64 <$> Read.signed width) s = .ok (value, t) ↔
      format.HasFields addressSize ∧
        ∃ used, format.Begins addressSize s.bytes value used ∧ t = s.drop used := by
  simp only [map_toUInt64_eq_ok_iff, Read.signed_eq_ok_iff, begins_signed_iff hwidth hsigned,
    hfields, hw, and_self, true_and, ne_eq, not_false_eq_true, and_assoc, exists_eq_left]

/-- **A value is read** exactly where the bytes begin with one, and its bytes are taken. -/
theorem read_eq_ok_iff :
    format.read addressSize s = .ok (value, t) ↔
      format.HasFields addressSize ∧
        ∃ used, format.Begins addressSize s.bytes value used ∧ t = s.drop used := by
  cases format with
  | absptr => exact unsigned_eq_ok_iff hasFields_absptr_iff rfl rfl
  | uleb128 =>
    rw [and_iff_right (hasFields_of_ne (by decide))]
    exact Read.uleb128_eq_ok_iff
  | udata2 => exact unsigned_eq_ok_iff (hasFields_iff (by decide) Read.isWidth_two) rfl rfl
  | udata4 => exact unsigned_eq_ok_iff (hasFields_iff (by decide) Read.isWidth_four) rfl rfl
  | udata8 => exact unsigned_eq_ok_iff (hasFields_iff (by decide) Read.isWidth_eight) rfl rfl
  | sleb128 =>
    rw [and_iff_right (hasFields_of_ne (by decide))]
    exact map_toUInt64_eq_ok_iff.trans Read.sleb128_eq_ok_iff
  | sdata2 => exact signed_eq_ok_iff (hasFields_of_ne (by decide)) (by decide) rfl rfl
  | sdata4 => exact signed_eq_ok_iff (hasFields_of_ne (by decide)) (by decide) rfl rfl
  | sdata8 => exact signed_eq_ok_iff (hasFields_of_ne (by decide)) (by decide) rfl rfl

theorem isCutOff_iff_length_lt {width : ℕ} {bytes : List UInt8}
    (hwidth : format.width? addressSize = some width) :
    format.IsCutOff addressSize bytes ↔ bytes.length < width := by
  simp only [IsCutOff, hwidth]

theorem wanted_eq {width : ℕ} (hwidth : format.width? addressSize = some width) :
    format.wanted addressSize = width := by
  rw [wanted, hwidth, Option.getD_some]

theorem unsigned_eq_error_iff {width : UInt8} (hsize : format = absptr → width = addressSize)
    (hw : format ≠ absptr → Read.isWidth width = true)
    (hwidth : format.width? addressSize = some width.toNat) :
    Read.unsigned width s = .error e ↔
      ¬format.HasFields addressSize ∧ e = .unsupportedWidth addressSize ∨
        format.HasFields addressSize ∧ format.IsCutOff addressSize s.bytes ∧
          e = Read.short (format.wanted addressSize) s := by
  rw [Read.unsigned_eq_error_iff, isCutOff_iff_length_lt hwidth, wanted_eq hwidth]
  by_cases habsptr : format = absptr
  · obtain rfl := hsize habsptr
    rw [habsptr, hasFields_absptr_iff]
  · simp only [hasFields_of_ne habsptr, hw habsptr, not_true_eq_false, false_and]

theorem signed_eq_error_iff {width : UInt8} (hfields : format.HasFields addressSize)
    (hw : Read.isWidth width = true ∧ width ≠ 1)
    (hwidth : format.width? addressSize = some width.toNat) :
    (Int64.toUInt64 <$> Read.signed width) s = .error e ↔
      ¬format.HasFields addressSize ∧ e = .unsupportedWidth addressSize ∨
        format.HasFields addressSize ∧ format.IsCutOff addressSize s.bytes ∧
          e = Read.short (format.wanted addressSize) s := by
  simp only [Read.map_eq_error_iff, Read.signed_eq_error_iff, isCutOff_iff_length_lt hwidth,
    wanted_eq hwidth, hfields, hw, not_true_eq_false, false_and, ne_eq, not_false_eq_true,
    and_self]

/-- **A value is not read** exactly where there are no fields for it or the bytes end too early. -/
theorem read_eq_error_iff :
    format.read addressSize s = .error e ↔
      ¬format.HasFields addressSize ∧ e = .unsupportedWidth addressSize ∨
        format.HasFields addressSize ∧ format.IsCutOff addressSize s.bytes ∧
          e = Read.short (format.wanted addressSize) s := by
  cases format with
  | absptr => exact unsigned_eq_error_iff (fun _ ↦ rfl) (absurd rfl) rfl
  | uleb128 =>
    have hfields : uleb128.HasFields addressSize := hasFields_of_ne (by decide)
    simp only [hfields, not_true_eq_false, false_and, true_and, false_or]
    refine Read.uleb128_eq_error_iff.trans (and_congr_left fun _ ↦ ?_)
    exact Option.map_eq_none_iff.trans Leb128.scan_eq_none_iff
  | udata2 => exact unsigned_eq_error_iff nofun (fun _ ↦ Read.isWidth_two) rfl
  | udata4 => exact unsigned_eq_error_iff nofun (fun _ ↦ Read.isWidth_four) rfl
  | udata8 => exact unsigned_eq_error_iff nofun (fun _ ↦ Read.isWidth_eight) rfl
  | sleb128 =>
    have hfields : sleb128.HasFields addressSize := hasFields_of_ne (by decide)
    simp only [hfields, not_true_eq_false, false_and, true_and, false_or]
    refine Read.map_eq_error_iff.trans ?_
    refine Read.sleb128_eq_error_iff.trans (and_congr_left fun _ ↦ ?_)
    exact Option.map_eq_none_iff.trans Leb128.scan_eq_none_iff
  | sdata2 => exact signed_eq_error_iff (hasFields_of_ne (by decide)) (by decide) rfl
  | sdata4 => exact signed_eq_error_iff (hasFields_of_ne (by decide)) (by decide) rfl
  | sdata8 => exact signed_eq_error_iff (hasFields_of_ne (by decide)) (by decide) rfl

end ValueFormat

/-! ## Pointers -/

namespace PointerEncoding

variable {e : PointerEncoding} {addressSize : UInt8} {s t : Span} {error : Error}

/-- A pointer is read where it is omitted, or where a value of its format is. -/
theorem read_eq_ok_iff {v : Option UInt64} :
    e.read addressSize s = .ok (v, t) ↔
      e = omitted ∧ v = none ∧ t = s ∨
        ∃ format value, e.format? = some format ∧ v = some value ∧
          format.read addressSize s = .ok (value, t) := by
  by_cases homitted : e = omitted
  · subst homitted
    have hnone : omitted.format? = none := rfl
    simp only [hnone, reduceCtorEq, false_and, exists_false, or_false, true_and]
    constructor
    · rintro ⟨⟩
      exact ⟨rfl, rfl⟩
    · rintro ⟨rfl, rfl⟩
      rfl
  · cases hformat : e.format? with
    | none =>
      simp only [read, hformat, homitted, reduceCtorEq, false_and, exists_false,
        or_self, iff_false]
      intro h
      cases h
    | some format =>
      rw [read_eq homitted hformat, Read.map_eq_ok_iff]
      simp only [homitted, false_and, false_or, Option.some.injEq, exists_eq_left',
        exists_and_left]
      exact exists_congr fun _ ↦ and_comm

theorem read_eq_error_iff :
    e.read addressSize s = .error error ↔
      e ≠ omitted ∧ e.format? = none ∧ error = .invalidPointerEncoding e.byte ∨
        ∃ format, e.format? = some format ∧ format.read addressSize s = .error error := by
  by_cases homitted : e = omitted
  · subst homitted
    have hnone : omitted.format? = none := rfl
    simp only [hnone, ne_eq, not_true_eq_false, reduceCtorEq, false_and, exists_false, or_self,
      iff_false]
    intro h
    cases h
  · cases hformat : e.format? with
    | none =>
      simp only [read, hformat, ne_eq, homitted, not_false_eq_true, true_and,
        reduceCtorEq, false_and, exists_false, or_false]
      exact ⟨fun h ↦ (Except.error.inj h).symm, fun h ↦ h ▸ rfl⟩
    | some format =>
      rw [read_eq homitted hformat, Read.map_eq_error_iff]
      simp only [reduceCtorEq, false_and, and_false, false_or, Option.some.injEq, exists_eq_left']

end PointerEncoding

end ElfUnwind
