import ElfUnwind.Proofs.BackReferences
import ElfUnwind.Proofs.RecordRoundTrip

/-!
# Relative addresses in four bytes

Where addresses have four bytes, a start relative to its own place is stored as the difference
modulo `2 ^ 32`. The decoder extends what is stored to 64 bits and adds the place modulo `2 ^ 64`,
so it gets the start back only if the extended difference is the difference of the two addresses:
with zeros if the start is not below its place, by the sign if they are less than `2 ^ 31` apart
(`FrameIndex.start_eq_iff_reaches`). Otherwise the start is off by `2 ^ 32`, which is no address of
four bytes.
-/

namespace ElfUnwind

open BodyDecoder

/-! ## Four bytes as a difference -/

theorem eq_toUInt64_toUInt32_iff {n : UInt64} : n = n.toUInt32.toUInt64 ↔ n.toNat < 2 ^ 32 := by
  rw [← UInt64.toNat_inj, UInt32.toNat_toUInt64, UInt64.toNat_toUInt32]
  omega

theorem add_ofNat_eq_toUInt64 {base : UInt64} {offset : Nat} {place : UInt32}
    (h : base.toNat + offset = place.toNat) : base + UInt64.ofNat offset = place.toUInt64 := by
  have hplace := place.toNat_lt
  rw [← UInt64.toNat_inj, UInt64.toNat_add, UInt32.toNat_toUInt64, UInt64.toNat_ofNat']
  omega

namespace ValueFormat

/-- What is read from four bytes in a format: their number, extended by its sign or with zeros. -/
def extend (format : ValueFormat) (stored : UInt32) : UInt64 :=
  if format.isSigned then (Int64.ofInt (LittleEndian.signed 4 stored.toNat)).toUInt64
  else stored.toUInt64

/-- Whether the difference of two addresses is kept when its lowest four bytes are extended. -/
def Reaches (format : ValueFormat) (target place : UInt32) : Prop :=
  if format.isSigned then
    -2 ^ 31 ≤ (target.toNat - place.toNat : Int) ∧ (target.toNat - place.toNat : Int) < 2 ^ 31
  else place ≤ target

instance (format : ValueFormat) (target place : UInt32) :
    Decidable (format.Reaches target place) :=
  inferInstanceAs (Decidable (ite _ _ _))

/-- Two's complement of 64 bits is the remainder modulo `2 ^ 64`. -/
theorem toNat_toUInt64_ofInt (i : Int) : (Int64.ofInt i).toUInt64.toNat = (i % 2 ^ 64).toNat := by
  change (Int64.ofInt i).toBitVec.toNat = _
  rw [Int64.toBitVec_ofInt, BitVec.toNat_ofInt]
  rfl

/-- The sign of four bytes fills the other four. -/
theorem toNat_extend_of_isSigned {format : ValueFormat} (h : format.isSigned = true)
    (stored : UInt32) : (format.extend stored).toNat =
      if stored.toNat < 2 ^ 31 then stored.toNat else stored.toNat + (2 ^ 64 - 2 ^ 32) := by
  have hlt := stored.toNat_lt
  rw [extend, if_pos h, toNat_toUInt64_ofInt, LittleEndian.signed, LittleEndian.capacity_four,
    Int.bmod_def]
  simp only [UInt32.size]
  split <;> split <;> omega

/-- **A difference gives the target back** if and only if it reaches it. -/
theorem extend_sub_add_eq_iff (format : ValueFormat) (target place : UInt32) :
    format.extend (target - place) + place.toUInt64 = target.toUInt64 ↔
      format.Reaches target place := by
  have htarget := target.toNat_lt
  have hplace := place.toNat_lt
  rw [← UInt64.toNat_inj, UInt64.toNat_add, UInt32.toNat_toUInt64, UInt32.toNat_toUInt64, Reaches]
  by_cases h : format.isSigned = true
  · rw [toNat_extend_of_isSigned h, if_pos h, UInt32.toNat_sub]
    split <;> omega
  · rw [extend, if_neg h, if_neg h, UInt32.toNat_toUInt64, UInt32.toNat_sub, UInt32.le_iff_toNat_le]
    omega

/-- The lowest four bytes are those of the target in any case. -/
theorem toUInt32_extend_sub_add (format : ValueFormat) (target place : UInt32) :
    (format.extend (target - place) + place.toUInt64).toUInt32 = target := by
  have htarget := target.toNat_lt
  have hplace := place.toNat_lt
  rw [← UInt32.toNat_inj, UInt64.toNat_toUInt32, UInt64.toNat_add, UInt32.toNat_toUInt64]
  by_cases h : format.isSigned = true
  · rw [toNat_extend_of_isSigned h, UInt32.toNat_sub]
    split <;> omega
  · rw [extend, if_neg h, UInt32.toNat_toUInt64, UInt32.toNat_sub]
    omega

/-- Four bytes are read as what they are extended to. -/
theorem takes_extend {format : ValueFormat} {addressSize : UInt8}
    (h : format.width? addressSize = some 4) (stored : UInt32) (place : Nat) :
    (format.read addressSize).Takes place (LittleEndian.ofNat 4 stored.toNat)
      (format.extend stored) := by
  have hunsigned : (Read.unsigned 4).Takes place (LittleEndian.ofNat 4 stored.toNat)
      stored.toUInt64 := by
    rw [← UInt32.toNat_toUInt64]
    refine Read.takes_unsigned_toNat place Read.isWidth_four ?_
    rw [UInt32.toNat_toUInt64]
    exact stored.toNat_lt
  cases format with
  | absptr =>
    have hsize : addressSize = 4 := UInt8.toNat_inj.mp (Option.some.inj h)
    rw [hsize]
    exact hunsigned
  | udata4 => exact hunsigned
  | sdata4 =>
    have hbytes := Read.takes_bytes place (LittleEndian.ofNat 4 stored.toNat)
    rw [LittleEndian.length_ofNat] at hbytes
    have hread := (hbytes.map fun front ↦
      Int64.ofInt (LittleEndian.signed 4 (LittleEndian.toNat front))).map Int64.toUInt64
    rwa [LittleEndian.toNat_ofNat_of_lt stored.toNat_lt] at hread
  | uleb128 => cases h
  | udata2 => cases h
  | udata8 => cases h
  | sleb128 => cases h
  | sdata2 => cases h
  | sdata8 => cases h

end ValueFormat

/-! ## The start of a range -/

namespace Fde

variable {context : FrameContext} {offset : Nat} {isWide : Bool} {cie : Cie} {s u : Span}
  {head fde : Fde} {format : ValueFormat} {target place : UInt32}

/-- The start of a range is made from the value in front of the fields, whatever stands behind. -/
theorem start_of_fields {front rest : List UInt8} {value : UInt64}
    (hbytes : s.bytes = front ++ rest)
    (hvalue : (silent (pointer cie.addressEncoding cie.addressSize)).Takes s.offset front value)
    (h : silent (fields context offset isWide cie) s = .ok (head, u)) :
    head.start = address context cie.addressEncoding s.offset value := by
  rw [silent_fields] at h
  obtain ⟨location, t, hoffset, h⟩ := Read.bind_eq_ok_iff.mp h
  cases hoffset
  have hread := hvalue rest
  rw [← hbytes] at hread
  rw [Read.bind_of_ok hread] at h
  obtain ⟨length, t, -, h⟩ := Read.bind_eq_ok_iff.mp h
  obtain ⟨_, t, -, h⟩ := Read.bind_eq_ok_iff.mp h
  obtain ⟨_, t, -, h⟩ := Read.bind_eq_ok_iff.mp h
  cases h
  rfl

/-- A pointer in a format of four bytes is read as what they are extended to. -/
theorem takes_pointer_extend (hformat : cie.addressEncoding.format? = some format)
    (hwidth : format.width? cie.addressSize = some 4) (stored : UInt32) (place : Nat) :
    (silent (pointer cie.addressEncoding cie.addressSize)).Takes place
      (LittleEndian.ofNat 4 stored.toNat) (format.extend stored) := by
  have hread := (ValueFormat.takes_extend hwidth stored place).map some
  rw [← PointerEncoding.read_eq (PointerEncoding.ne_omitted_of_format? hformat) hformat] at hread
  rw [silent_pointer]
  rw [← List.append_nil (LittleEndian.ofNat 4 stored.toNat)]
  exact hread.bind (Read.Takes.pure _ _)

/-- A start that is stored as the difference to its place is decoded to their sum. -/
theorem start_of_decode (h : silent (decode context offset isWide cie) s = .ok (fde, u))
    (hrelative : cie.addressEncoding.isPcRelative = true)
    (hformat : cie.addressEncoding.format? = some format)
    (hwidth : format.width? cie.addressSize = some 4)
    (hplace : context.base.toNat + s.offset = place.toNat)
    (hstored : s.bytes.take 4 = LittleEndian.ofNat 4 (target - place).toNat) :
    fde.start = format.extend (target - place) + place.toUInt64 := by
  obtain ⟨head, t, hfields, rfl, -⟩ := silent_decode_eq_ok_iff.mp h
  have hbytes : s.bytes = LittleEndian.ofNat 4 (target - place).toNat ++ s.bytes.drop 4 := by
    rw [← hstored, List.take_append_drop]
  have hstart := start_of_fields hbytes (takes_pointer_extend hformat hwidth _ _) hfields
  rwa [address, if_pos hrelative, UInt64.add_assoc, add_ofNat_eq_toUInt64 hplace] at hstart

end Fde

/-! ## The FDEs of a pass -/

theorem Layout.Tiles.eq_of_offset_eq {pos stop : Nat} {ps : List Piece} {p q : Piece}
    (h : Tiles pos ps stop) (hp : p ∈ ps) (hq : q ∈ ps) (hoffset : p.offset = q.offset) :
    p = q := by
  induction h with
  | nil pos => exact absurd hp List.not_mem_nil
  | cons hlt hle htiles ih =>
    rcases List.mem_cons.mp hp with rfl | hpBehind
    · rcases List.mem_cons.mp hq with rfl | hqBehind
      · rfl
      · have := (htiles.le_of_mem hqBehind).1
        omega
    · rcases List.mem_cons.mp hq with rfl | hqBehind
      · have := (htiles.le_of_mem hpBehind).1
        omega
      · exact ih hpBehind hqBehind

namespace FrameIndex

variable {context : FrameContext} {bytes : List UInt8} {p : Piece} {ps : List Piece}
  {index grown : FrameIndex} {start : UInt64} {fde : Fde} {format : ValueFormat}
  {target place : UInt32}

/-- The FDE is what the record of a piece is decoded to, with the CIE it has. -/
def DecodedFrom (context : FrameContext) (bytes : List UInt8) (p : Piece) (fde : Fde) : Prop :=
  ∃ u, silent (Fde.decode context p.offset p.isWide fde.cie) (p.record bytes).afterId =
    .ok (fde, u)

/-- An FDE that a record adds is decoded from it. -/
theorem decodedFrom_of_outcome (hr : (p.record bytes).outcome context index = .ok grown)
    (hfde : grown.fde? start = some fde) :
    index.fde? start = some fde ∨ (fde.start = start ∧ DecodedFrom context bytes p fde) := by
  obtain ⟨id, s, hid, hentry⟩ := RawRecord.outcome_eq_ok_iff.mp hr
  rcases hentry with ⟨-, head, t, hfields, rfl⟩ | ⟨-, cie, head, t, hfound, hfields, rfl⟩
  · exact Or.inl hfde
  · by_cases hstart : start = head.start
    · subst hstart
      rw [fde?_insertFde_self] at hfde
      cases hfde
      obtain ⟨rfl, -⟩ := Fde.yields_fields_isDefined cie s t head hfields
      refine Or.inr ⟨rfl, t.drop t.bytes.length, ?_⟩
      rw [RawRecord.afterId, ← (RawRecord.drop_of_readId hid).2]
      exact Fde.silent_decode_eq_ok_iff.mpr ⟨head, t, hfields, rfl, rfl⟩
    · have hne : start ≠ ({ head with instructions := t.bytes } : Fde).start := hstart
      rw [fde?_insertFde_of_ne hne] at hfde
      exact Or.inl hfde

/-- **Where FDEs come from.** An FDE that pieces leave in the index was there before or is decoded
from one of them. -/
theorem decodedFrom_of_fde? (hfde : (decodePieces context bytes ps index).2.fde? start = some fde) :
    index.fde? start = some fde ∨
      (fde.start = start ∧ ∃ p ∈ ps, DecodedFrom context bytes p fde) := by
  revert hfde
  refine decodePieces_keeps (motive := fun final ↦ final.fde? start = some fde →
    index.fde? start = some fde ∨ (fde.start = start ∧ ∃ p ∈ ps, DecodedFrom context bytes p fde))
    ?_ Or.inl
  intro p hp before grown hr hbefore hgrown
  rcases decodedFrom_of_outcome hr hgrown with hold | ⟨hstart, hfrom⟩
  · exact hbefore hold
  · exact Or.inr ⟨hstart, p, hp, hfrom⟩

/-- An FDE whose range is not empty is found at its start. -/
theorem findFde?_of_fde? (h : index.fde? start = some fde) (hstart : fde.start = start)
    (hstop : start < fde.stop) : index.findFde? start = some fde := by
  have hlast : index.fdes.lastUpTo? start = some (start, fde) := by
    refine SortedMap.lastUpTo?_eq_some_iff.mpr ⟨SortedMap.get?_eq_some_iff.mp h, ?_, ?_⟩
    · exact StrictTotal.irrefl start
    · exact fun _ _ hle ↦ hle
  rw [findFde?, hlast, Option.map_some, Option.filter_eq_some_iff]
  exact ⟨rfl, Fde.contains_iff.mpr ⟨UInt64.le_of_eq hstart, hstop⟩⟩

/-- **A relative start comes back if it is within reach.** An FDE that a pass adds to the index may
store its start in four bytes, as the difference to the place of the start. Then it is decoded to
that start modulo `2 ^ 32`; it is an address of four bytes, at which the FDE is found, just if the
difference reaches it. -/
theorem start_eq_iff_reaches
    (hfde : (index.decodeInto context bytes).value.2.fde? start = some fde)
    (hnew : index.fde? start ≠ some fde)
    (hrelative : fde.addressEncoding.isPcRelative = true)
    (hformat : fde.addressEncoding.format? = some format)
    (hwidth : format.width? fde.cie.addressSize = some 4)
    (hpiece : p ∈ (Layout.ofSection context.kind bytes).pieces) (hoffset : p.offset = fde.offset)
    (hplace : context.base.toNat + (p.record bytes).afterId.offset = place.toNat)
    (hstored : (p.record bytes).afterId.bytes.take 4 =
      LittleEndian.ofNat 4 (target - place).toNat) :
    fde.start.toUInt32 = target ∧
      (fde.start = target.toUInt64 ↔ format.Reaches target place) ∧
      (fde.start.toNat < 2 ^ 32 ↔ format.Reaches target place) ∧
      (format.Reaches target place → target.toUInt64 < fde.stop →
        (index.decodeInto context bytes).value.2.findFde? target.toUInt64 = some fde) := by
  obtain ⟨stop, htiles, -⟩ := Layout.tiles_ofSection context.kind bytes
  have hpass := hfde
  rw [value_decodeInto, decodeLayout_snd] at hpass
  obtain ⟨hkey, q, hq, u, hdecode⟩ := (decodedFrom_of_fde? hpass).resolve_left hnew
  obtain ⟨head, t, hfields, hhead, -⟩ := Fde.silent_decode_eq_ok_iff.mp hdecode
  have hqOffset : p.offset = q.offset := by
    rw [hoffset, hhead, ← Fde.yields_fields _ _ _ head hfields]
  obtain rfl := htiles.eq_of_offset_eq hpiece hq hqOffset
  have hstart := Fde.start_of_decode hdecode hrelative hformat hwidth hplace hstored
  have hiff : fde.start = target.toUInt64 ↔ format.Reaches target place := by
    rw [hstart, ValueFormat.extend_sub_add_eq_iff]
  have hlow : fde.start.toUInt32 = target := by
    rw [hstart, ValueFormat.toUInt32_extend_sub_add]
  refine ⟨hlow, hiff, ?_, ?_⟩
  · rw [← hiff, ← hlow, eq_toUInt64_toUInt32_iff]
  · intro hreaches hstop
    have hself := hiff.mpr hreaches
    rw [← hself] at hstop ⊢
    exact findFde?_of_fde? (hkey ▸ hfde) rfl hstop

/-- A section at `0x2000` whose FDE has the range from `0x1000` on, below the place `0x2019` of its
start. -/
def belowPlace (e : PointerEncoding) : List UInt8 :=
  FrameItem.frame false
      (FrameItem.idField false 0 ++ [1, 0x7a, 0x52, 0, 1, 0x7c, 8, 1, e.byte]) ++
    FrameItem.frame false
      (FrameItem.idField false 21 ++ LittleEndian.ofNat 4 (0x1000 - 0x2019 : UInt32).toNat ++
        LittleEndian.ofNat 4 0x20 ++ [0])

/-- The CIE of that section. -/
def relativeCie (e : PointerEncoding) : Cie := ⟨0, 1, "zR", 4, -4, e, ⟨0⟩, false, []⟩

/-- The record of its FDE. -/
def fdeBelowPlace : Piece := ⟨17, 21, 34, false⟩

theorem start_eq_iff_reaches_belowPlace :
    ∃ fde : Fde, ((empty .ehFrame).decodeInto ⟨.ehFrame, 0x2000, 4⟩
        (belowPlace ⟨0x1b⟩)).value.2.fde? 0x1000 = some fde ∧
      fde.addressEncoding.isPcRelative = true ∧
      fde.addressEncoding.format? = some .sdata4 ∧
      ValueFormat.sdata4.width? fde.cie.addressSize = some 4 ∧
      (0x2000 : UInt64).toNat + (fdeBelowPlace.record (belowPlace ⟨0x1b⟩)).afterId.offset =
        (0x2019 : UInt32).toNat ∧
      (fdeBelowPlace.record (belowPlace ⟨0x1b⟩)).afterId.bytes.take 4 =
        LittleEndian.ofNat 4 (0x1000 - 0x2019 : UInt32).toNat ∧
      fde.start = (0x1000 : UInt32).toUInt64 ∧
      ((empty .ehFrame).decodeInto ⟨.ehFrame, 0x2000, 4⟩
        (belowPlace ⟨0x1b⟩)).value.2.findFde? (0x1000 : UInt32).toUInt64 = some fde := by
  have hfde : ((empty .ehFrame).decodeInto ⟨.ehFrame, 0x2000, 4⟩
      (belowPlace ⟨0x1b⟩)).value.2.fde? 0x1000 =
        some ⟨17, relativeCie ⟨0x1b⟩, 0x1000, 0x1020, false, []⟩ := by cbv
  have hrelative : (relativeCie ⟨0x1b⟩).addressEncoding.isPcRelative = true := by decide
  have hformat : (relativeCie ⟨0x1b⟩).addressEncoding.format? = some .sdata4 := by decide
  have hwidth : ValueFormat.sdata4.width? (relativeCie ⟨0x1b⟩).addressSize = some 4 := by decide
  have hpieces : (Layout.ofSection .ehFrame (belowPlace ⟨0x1b⟩)).pieces =
      [⟨0, 4, 17, false⟩, fdeBelowPlace] := by cbv
  have hpiece : fdeBelowPlace ∈ (Layout.ofSection .ehFrame (belowPlace ⟨0x1b⟩)).pieces := by
    rw [hpieces]
    exact List.mem_cons_of_mem _ List.mem_cons_self
  have hplace : (0x2000 : UInt64).toNat +
      (fdeBelowPlace.record (belowPlace ⟨0x1b⟩)).afterId.offset = (0x2019 : UInt32).toNat := by
    decide
  have hstored : (fdeBelowPlace.record (belowPlace ⟨0x1b⟩)).afterId.bytes.take 4 =
      LittleEndian.ofNat 4 (0x1000 - 0x2019 : UInt32).toNat := by decide
  obtain ⟨-, hstart, -, hfind⟩ := start_eq_iff_reaches hfde (by simp) hrelative hformat hwidth
    hpiece rfl hplace hstored
  exact ⟨_, hfde, hrelative, hformat, hwidth, hplace, hstored, hstart.mpr (by decide),
    hfind (by decide) (by decide)⟩

/-- With zeros in place of the sign the start is off by `2 ^ 32`: nothing is found at `0x1000`. -/
theorem start_belowPlace :
    (0x2000 : UInt64).toNat + (fdeBelowPlace.record (belowPlace ⟨0x10⟩)).afterId.offset =
        (0x2019 : UInt32).toNat ∧
      (fdeBelowPlace.record (belowPlace ⟨0x10⟩)).afterId.bytes.take 4 =
        LittleEndian.ofNat 4 (0x1000 - 0x2019 : UInt32).toNat ∧
      ((empty .ehFrame).decodeInto ⟨.ehFrame, 0x2000, 4⟩ (belowPlace ⟨0x10⟩)).value.1 = .ok () ∧
      ((empty .ehFrame).decodeInto ⟨.ehFrame, 0x2000, 4⟩
          (belowPlace ⟨0x10⟩)).value.2.fdes.entries =
        [(0x100001000, ⟨17, relativeCie ⟨0x10⟩, 0x100001000, 0x100001020, false, []⟩)] ∧
      ((empty .ehFrame).decodeInto ⟨.ehFrame, 0x2000, 4⟩
          (belowPlace ⟨0x10⟩)).value.2.findFde? 0x1000 = none :=
  ⟨by decide, by decide, by cbv, by cbv, by cbv⟩

end FrameIndex

end ElfUnwind
