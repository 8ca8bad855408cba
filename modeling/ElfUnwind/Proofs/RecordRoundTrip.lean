import ElfUnwind.Proofs.RecordDecoding

/-!
# Written records are read back

The fields of a CIE and of an FDE are taken from the bytes they are written as
(`CieFields.takes_fields`, `FdeFields.takes_fields`), and a record is split off by its length
whatever follows (`Framing.next_frame`). The letters of an augmentation string and the data behind
them are one induction: each letter takes its own data and settles one thing about FDEs.
-/

namespace ElfUnwind

open BodyDecoder

/-! ## Augmentation strings -/

namespace CieFields

theorem mem_augmentationString {c : CieFields} {letter : Char} (h : letter ∈ c.augmentationString) :
    letter = 'z' ∨ letter = 'R' ∨ letter = 'P' ∨ letter = 'L' := by
  rw [augmentationString] at h
  split at h
  · exact absurd h List.not_mem_nil
  · rcases List.mem_cons.mp h with rfl | h
    · exact Or.inl rfl
    · obtain ⟨a, -, rfl⟩ := List.mem_map.mp h
      cases a with
      | address encoding => exact Or.inr (Or.inl rfl)
      | personality encoding value => exact Or.inr (Or.inr (Or.inl rfl))
      | lsda encoding => exact Or.inr (Or.inr (Or.inr rfl))

theorem mem_augmentationText {c : CieFields} {b : UInt8} (h : b ∈ c.augmentationText) :
    b ≠ 0 ∧ b < 0x80 := by
  obtain ⟨letter, hletter, rfl⟩ := List.mem_map.mp h
  rcases mem_augmentationString hletter with rfl | rfl | rfl | rfl <;> decide

theorem decode_augmentationText (c : CieFields) :
    Text.Utf8.decode c.augmentationText = String.ofList c.augmentationString := by
  rw [Text.Utf8.decode, Text.Utf8.decodeFrom_ascii fun b hb ↦ (mem_augmentationText hb).2,
    augmentationText, List.map_map]
  congr 1
  refine (List.map_congr_left fun letter hletter ↦ ?_).trans (List.map_id _)
  rcases mem_augmentationString hletter with rfl | rfl | rfl | rfl <;> decide

theorem isAugmentation_augmentationString (c : CieFields) :
    Cie.isAugmentation (String.ofList c.augmentationString) = true := by
  rw [Cie.isAugmentation, String.toList_ofList, augmentationString]
  split <;> rfl

theorem silent_checkAugmentation (c : CieFields) (malformed : Error) :
    silent (Cie.checkAugmentation malformed (String.ofList c.augmentationString)) = pure () := by
  rw [Cie.checkAugmentation, if_pos (isAugmentation_augmentationString c), silent_pure]

end CieFields

/-! ## Augmentation data -/

theorem Augmentation.takes_letterData {addressSize : UInt8} {a : Augmentation}
    (h : a.WellFormed addressSize) (malformed : Error) (data : AugmentationData) (place : Nat) :
    (silent (Cie.letterData addressSize malformed data a.letter)).Takes place
      (a.data addressSize) (a.settle data) := by
  rw [Cie.silent_letterData]
  cases a with
  | address encoding =>
    rw [show letter (address encoding) = 'R' from rfl, if_pos rfl]
    exact (Read.takes_byte place encoding.byte).bind_pure _
  | personality encoding value =>
    rw [show letter (personality encoding value) = 'P' from rfl, if_neg (by decide), if_pos rfl]
    have hvalue : ∃ read, (encoding.read addressSize).Takes (place + 1)
        (encoding.write addressSize value) read := by
      rcases h with rfl | hstores
      · exact ⟨none, PointerEncoding.takes_write_omitted addressSize value _⟩
      · exact ⟨some value, PointerEncoding.takes_write hstores _⟩
    obtain ⟨read, hread⟩ := hvalue
    exact (Read.takes_byte place encoding.byte).bind (hread.bind_pure _)
  | lsda encoding =>
    rw [show letter (lsda encoding) = 'L' from rfl, if_neg (by decide), if_neg (by decide),
      if_pos rfl]
    exact (Read.takes_byte place encoding.byte).bind_pure _

theorem Augmentation.takes_letters {addressSize : UInt8} {letters : List Augmentation}
    (h : ∀ a ∈ letters, a.WellFormed addressSize) (malformed : Error) (data : AugmentationData)
    (place : Nat) :
    ((letters.map letter).foldlM
        (fun data c ↦ silent (Cie.letterData addressSize malformed data c)) data).Takes place
      (letters.flatMap (Augmentation.data addressSize)) (letters.foldl settle data) := by
  induction letters generalizing data place with
  | nil => exact Read.Takes.pure data place
  | cons a letters ih =>
    rw [List.map_cons, List.foldlM_cons, List.flatMap_cons, List.foldl_cons]
    have hhead := takes_letterData (h a List.mem_cons_self) malformed data place
    exact hhead.bind (ih (fun b hb ↦ h b (List.mem_cons_of_mem a hb)) _ _)

namespace CieFields

variable {context : FrameContext} {c : CieFields}

theorem takes_augmentationData (h : c.WellFormed context) (malformed : Error) (place : Nat)
    (hlen : (c.augmentationBytes context).length < 2 ^ 64) :
    (silent (Cie.augmentationData (c.effectiveSize context) malformed
        (String.ofList c.augmentationString))).Takes place (c.augmentationBytes context)
      c.augmentationData := by
  rw [Cie.silent_augmentationData, String.toList_ofList, augmentationString, augmentationBytes,
    augmentationData]
  cases haug : c.augmentation with
  | none => exact Read.Takes.pure _ place
  | some letters =>
    rw [if_pos (List.head?_cons ..), List.tail_cons]
    have hdata : (letters.flatMap (Augmentation.data (c.effectiveSize context))).length
        < 2 ^ 64 := by
      rw [augmentationBytes, haug, List.length_append] at hlen
      omega
    exact (Read.takes_uleb128 place hdata).bind
      (Augmentation.takes_letters (h.2 letters haug) malformed {} _)

/-! ## The fields of a CIE -/

theorem takes_declaredSize (place : Nat) :
    (silent (Cie.declaredSize context c.version)).Takes place
      (if 4 ≤ c.version then [c.addressSize, c.segmentSize] else [])
      (c.effectiveSize context) := by
  rw [Cie.silent_declaredSize, effectiveSize]
  by_cases hv : 4 ≤ c.version
  · rw [if_pos hv, if_pos hv, if_pos hv]
    exact (Read.takes_byte place c.addressSize).bind
      ((Read.takes_byte _ c.segmentSize).bind_pure _)
  · rw [if_neg hv, if_neg hv, if_neg hv]
    exact Read.Takes.pure _ place

theorem takes_returnRegister (h : c.WellFormed context) (place : Nat) :
    (Cie.returnRegister c.version).Takes place
      (if c.version = 1 then [c.returnRegister.toUInt8]
       else Leb128.encodeUnsigned c.returnRegister.toNat) c.returnRegister := by
  rw [Cie.returnRegister]
  by_cases hv : c.version = 1
  · rw [if_pos hv, if_pos hv]
    have hbyte : c.returnRegister.toUInt8.toUInt64 = c.returnRegister := by
      apply UInt64.toNat_inj.mp
      rw [UInt8.toNat_toUInt64, UInt64.toNat_toUInt8, Nat.mod_eq_of_lt (h.1 hv)]
    have hread := (Read.takes_byte place c.returnRegister.toUInt8).map UInt8.toUInt64
    rwa [hbyte] at hread
  · rw [if_neg hv, if_neg hv]
    exact Read.takes_uleb128_toNat place _

/-- The fields of a CIE are read back from bytes part by part, however its numbers and its
augmentation data are written. -/
theorem takes_fields_of (offset place : Nat) {code data register augmentation : List UInt8}
    (hcode : ∀ place, Read.uleb128.Takes place code c.codeAlignment)
    (hdata : ∀ place, Read.sleb128.Takes place data c.dataAlignment)
    (hregister : ∀ place, (Cie.returnRegister c.version).Takes place register c.returnRegister)
    (haugmentation : ∀ malformed place, (silent (Cie.augmentationData (c.effectiveSize context)
      malformed (String.ofList c.augmentationString))).Takes place augmentation
        c.augmentationData) :
    (silent (Cie.fields context offset c.isWide)).Takes place
      ([c.version] ++ (c.augmentationText ++ [0]) ++
        (if 4 ≤ c.version then [c.addressSize, c.segmentSize] else []) ++ code ++ data ++
        register ++ augmentation)
      { c.entry context offset with instructions := [] } := by
  rw [Cie.silent_fields]
  simp only [List.append_assoc]
  refine (Read.takes_byte place c.version).bind ?_
  rw [← List.append_assoc c.augmentationText]
  refine (Read.takes_zeroTerminated _ fun b hb ↦ (mem_augmentationText hb).1).bind ?_
  rw [decode_augmentationText, silent_checkAugmentation, pure_bind]
  refine (takes_declaredSize _).bind ?_
  refine (hcode _).bind ((hdata _).bind ((hregister _).bind ?_))
  exact (haugmentation _ _).bind_pure _

/-- **The fields of a CIE are read back.** -/
theorem takes_fields (h : c.WellFormed context) (offset place : Nat)
    (hlen : (c.fieldBytes context).length < 2 ^ 64) :
    (silent (Cie.fields context offset c.isWide)).Takes place (c.fieldBytes context)
      { c.entry context offset with instructions := [] } := by
  have haug : (c.augmentationBytes context).length < 2 ^ 64 := by
    rw [fieldBytes, List.length_append] at hlen
    omega
  exact takes_fields_of offset place (fun place ↦ Read.takes_uleb128_toNat place c.codeAlignment)
    (fun place ↦ Read.takes_sleb128 place c.dataAlignment) (takes_returnRegister h)
    fun malformed place ↦ takes_augmentationData h malformed place haug

end CieFields

/-! ## The fields of an FDE -/

namespace FdeFields

variable {target : Cie} {f : FdeFields}

theorem takes_pointer {e : PointerEncoding} {addressSize : UInt8} {value : UInt64}
    (h : e.Stores addressSize value) (place : Nat) :
    (silent (Fde.pointer e addressSize)).Takes place (e.write addressSize value) value := by
  rw [Fde.silent_pointer]
  rw [← List.append_nil (e.write addressSize value)]
  exact (PointerEncoding.takes_write h place).bind (Read.Takes.pure value _)

theorem takes_passLength (hlen : (f.lsdaBytes target).length < 2 ^ 64) (place : Nat) :
    (silent (Fde.passLength target)).Takes place
      (if target.hasAugmentationData then Leb128.encodeUnsigned (f.lsdaBytes target).length
       else []) () := by
  rw [Fde.silent_passLength]
  by_cases haug : target.hasAugmentationData = true
  · rw [if_pos haug, if_pos haug]
    exact (Read.takes_uleb128 place hlen).bind_pure _
  · rw [if_neg haug, if_neg haug]
    exact Read.Takes.pure () place

theorem takes_passLsda (h : f.WellFormed target) (place : Nat) :
    (silent (Fde.passLsda target)).Takes place (f.lsdaBytes target) () := by
  rw [Fde.silent_passLsda, lsdaBytes]
  by_cases hlsda : target.hasLsda = true
  · rw [if_pos hlsda, if_pos hlsda]
    exact (PointerEncoding.takes_write (h.2.2 hlsda) place).bind_pure _
  · rw [if_neg hlsda, if_neg hlsda]
    exact Read.Takes.pure () place

/-- **The fields of an FDE are read back** where its location stands, with the CIE it refers to. -/
theorem takes_fields (context : FrameContext) (h : f.WellFormed target) (offset : Nat)
    (hlen : (f.fieldBytes target).length < 2 ^ 64) :
    (silent (Fde.fields context offset f.isWide target)).Takes (offset + f.headSize)
      (f.fieldBytes target) { f.entry context offset target with instructions := [] } := by
  have hlsda : (f.lsdaBytes target).length < 2 ^ 64 := by
    rw [fieldBytes, List.length_append] at hlen
    omega
  rw [Fde.silent_fields]
  simp only [fieldBytes, List.append_assoc]
  refine Read.Takes.offset_bind ?_
  refine (takes_pointer h.1 _).bind ?_
  refine (takes_pointer h.2.1 _).bind ?_
  refine (takes_passLength hlsda _).bind ?_
  have hstart : Fde.address context target.addressEncoding (offset + f.headSize) f.location
      = (f.entry context offset target).start := by
    rw [Fde.address, entry, UInt64.add_assoc]
  rw [hstart]
  exact (takes_passLsda h _).bind_pure _

end FdeFields

/-! ## Lengths and identifiers -/

namespace FrameItem

variable {context : FrameContext} {isWide : Bool} {n : Nat}

theorem FieldFits.lt (h : FieldFits isWide n) : n < 2 ^ 64 := by
  cases isWide with
  | true => exact h
  | false => exact Nat.lt_trans h (by decide)

theorem FieldFits.toNat_ofNat (h : FieldFits isWide n) : (UInt64.ofNat n).toNat = n :=
  UInt64.toNat_ofNat_of_lt' h.lt

theorem takes_lengthField (h : FieldFits isWide n) (offset : Nat) :
    Framing.lengthField.Takes offset (lengthField isWide n) (UInt64.ofNat n, isWide) := by
  rw [Framing.lengthField, lengthField]
  cases isWide with
  | true =>
    rw [if_pos rfl]
    have hescape := Read.takes_unsigned (n := 0xffffffff) offset Read.isWidth_four (by decide)
    refine hescape.bind ?_
    rw [if_pos (by decide)]
    exact (Read.takes_unsigned _ Read.isWidth_eight h.lt).bind_pure _
  | false =>
    have hlt : n < 0xffffffff := h
    have hshort : n < LittleEndian.capacity 4 := Nat.lt_trans hlt (by decide)
    have hne : UInt64.ofNat n ≠ Framing.escape := by
      intro heq
      have hn := congrArg UInt64.toNat heq
      rw [h.toNat_ofNat] at hn
      exact absurd hn (Nat.ne_of_lt hlt)
    rw [if_neg Bool.false_ne_true, ← List.append_nil (LittleEndian.ofNat 4 n)]
    refine (Read.takes_unsigned offset Read.isWidth_four hshort).bind ?_
    rw [if_neg hne]
    exact Read.Takes.pure _ _

theorem length_lengthField (isWide : Bool) (n : Nat) :
    (lengthField isWide n).length = if isWide then 12 else 4 := by
  rw [lengthField]
  split
  · rw [List.length_append, LittleEndian.length_ofNat, LittleEndian.length_ofNat]
  · rw [LittleEndian.length_ofNat]

/-- **A written record is split off**, whatever follows it. -/
theorem next_frame {body : List UInt8} (hne : body ≠ []) (h : FieldFits isWide body.length)
    (offset : Nat) (tail : List UInt8) :
    Framing.next ⟨offset, frame isWide body ++ tail⟩ =
      .record ⟨offset, isWide, ⟨idOffset isWide offset, body⟩⟩
        ⟨offset + (frame isWide body).length, tail⟩ := by
  have hzero : UInt64.ofNat body.length ≠ 0 := by
    intro heq
    have hn := congrArg UInt64.toNat heq
    rw [h.toNat_ofNat] at hn
    exact hne (List.length_eq_zero_iff.mp hn)
  rw [frame, List.append_assoc,
    Framing.next_of_takes_of_eq (takes_lengthField h offset) hzero h.toNat_ofNat.symm,
    length_lengthField, List.length_append, length_lengthField, idOffset, Nat.add_assoc]

theorem next_zeroLength (isWide : Bool) (offset : Nat) (tail : List UInt8) :
    Framing.next ⟨offset, frame isWide [] ++ tail⟩ =
      .zeroLength offset ⟨offset + (frame isWide []).length, tail⟩ := by
  have hfits : FieldFits isWide 0 := by cases isWide <;> decide
  rw [frame, List.append_nil, List.length_nil,
    Framing.next_of_takes (takes_lengthField hfits offset),
    if_pos (show UInt64.ofNat 0 = 0 from rfl)]

theorem length_idField (isWide : Bool) (n : Nat) :
    (idField isWide n).length = RawRecord.idSize isWide := LittleEndian.length_ofNat _ _

theorem takes_idField (h : FieldFits isWide n) (place : Nat) :
    (RawRecord.readId isWide).Takes place (idField isWide n) (UInt64.ofNat n) := by
  rw [RawRecord.readId, idField]
  cases isWide with
  | true => exact (Read.takes_unsigned place Read.isWidth_eight h.lt).bind_pure _
  | false =>
    have hlt : n < 0xffffffff := h
    have hshort : n < LittleEndian.capacity 4 := Nat.lt_trans hlt (by decide)
    have hne : UInt64.ofNat n ≠ 0xffffffff := by
      intro heq
      have hn := congrArg UInt64.toNat heq
      rw [h.toNat_ofNat] at hn
      exact absurd hn (Nat.ne_of_lt hlt)
    have hread := (Read.takes_unsigned place Read.isWidth_four hshort).bind_pure
      fun id ↦ if (!false && id = 0xffffffff) = true then -1 else id
    rw [if_neg (by simpa using hne)] at hread
    exact hread

/-- The identifier of a CIE; in the short form of `.debug_frame` its four bytes are widened. -/
theorem takes_cieId (kind : FrameSection) (isWide : Bool) (place : Nat) :
    (RawRecord.readId isWide).Takes place (idField isWide kind.cieId.toNat) kind.cieId := by
  cases kind with
  | ehFrame => exact takes_idField (n := 0) (by cases isWide <;> decide) place
  | debugFrame =>
    cases isWide with
    | true => exact takes_idField (show FieldFits true (2 ^ 64 - 1) by decide) place
    | false =>
      have hread := Read.takes_unsigned (n := 0xffffffff) place Read.isWidth_four (by decide)
      exact hread.bind_pure fun id ↦ if (!false && id = 0xffffffff) = true then -1 else id

/-! ## Outcomes of written records -/

/-- **A written CIE is decoded to its entry.** -/
theorem outcome_cie {c : CieFields} (h : c.WellFormed context)
    (hfits : FieldFits c.isWide (cieBytes context c).length) (index : FrameIndex)
    (offset place : Nat) :
    RawRecord.outcome context index ⟨offset, c.isWide, ⟨place, cieBytes context c⟩⟩
      = .ok (index.insertCie (c.entry context offset)) := by
  have hlen : (c.fieldBytes context).length < 2 ^ 64 := by
    have hbody := hfits.lt
    rw [cieBytes, CieFields.body, List.length_append, List.length_append] at hbody
    omega
  have hid := takes_cieId context.kind c.isWide place (c.body context)
  have hfields := CieFields.takes_fields h offset
    (place + (idField c.isWide context.kind.cieId.toNat).length) hlen c.instructions
  exact RawRecord.outcome_eq_ok_iff.mpr ⟨_, _, hid, Or.inl ⟨rfl, _, _, hfields, rfl⟩⟩

/-- The identifier of an FDE marks no CIE and leads back to the one that is referred to. -/
theorem cieOffset_referenceId (kind : FrameSection) {idOffset cieOffset : Nat}
    (hlt : cieOffset < idOffset) (hend : idOffset < 2 ^ 64) :
    UInt64.ofNat (referenceId kind idOffset cieOffset) ≠ kind.cieId ∧
      (kind.cieOffset idOffset (UInt64.ofNat (referenceId kind idOffset cieOffset))).toNat
        = cieOffset := by
  have htoNat : ∀ n, n ≤ idOffset → (UInt64.ofNat n).toNat = n := fun n hn ↦
    UInt64.toNat_ofNat_of_lt' (Nat.lt_of_le_of_lt hn hend)
  cases kind with
  | ehFrame =>
    have hid := htoNat (idOffset - cieOffset) (Nat.sub_le _ _)
    constructor
    · intro heq
      have hzero := congrArg UInt64.toNat heq
      rw [show referenceId .ehFrame idOffset cieOffset = idOffset - cieOffset from rfl, hid,
        show FrameSection.ehFrame.cieId.toNat = 0 from rfl] at hzero
      omega
    · change (UInt64.ofNat idOffset - UInt64.ofNat (idOffset - cieOffset)).toNat = cieOffset
      rw [UInt64.toNat_sub, hid, htoNat idOffset (Nat.le_refl _)]
      omega
  | debugFrame =>
    have hid := htoNat cieOffset (Nat.le_of_lt hlt)
    constructor
    · intro heq
      have hones := congrArg UInt64.toNat heq
      rw [show referenceId .debugFrame idOffset cieOffset = cieOffset from rfl, hid,
        show FrameSection.debugFrame.cieId.toNat = 2 ^ 64 - 1 from rfl] at hones
      omega
    · exact hid

/-- **A written FDE is decoded to its entry**, if the CIE it refers to was decoded before. -/
theorem outcome_fde {f : FdeFields} {target : Cie} (h : f.WellFormed target) {offset : Nat}
    (hfits : FieldFits f.isWide (fdeBytes context offset target f).length)
    (hid : FieldFits f.isWide (referenceId context.kind (idOffset f.isWide offset) target.offset))
    {index : FrameIndex} (hfound : index.cie? target.offset = some target)
    (hlt : target.offset < offset) (hend : idOffset f.isWide offset < 2 ^ 64) :
    RawRecord.outcome context index
        ⟨offset, f.isWide, ⟨idOffset f.isWide offset, fdeBytes context offset target f⟩⟩
      = .ok (index.insertFde (f.entry context offset target)) := by
  have hlen : (f.fieldBytes target).length < 2 ^ 64 := by
    have hbody := hfits.lt
    rw [fdeBytes, FdeFields.body, List.length_append, List.length_append] at hbody
    omega
  have hbefore : target.offset < idOffset f.isWide offset :=
    Nat.lt_of_lt_of_le hlt (Nat.le_add_right _ _)
  obtain ⟨hne, hback⟩ := cieOffset_referenceId context.kind hbefore hend
  have hread := takes_idField hid (idOffset f.isWide offset) (f.body target)
  have hplace : idOffset f.isWide offset
      + (idField f.isWide (referenceId context.kind (idOffset f.isWide offset)
          target.offset)).length = offset + f.headSize := by
    rw [idField, LittleEndian.length_ofNat, idOffset, FdeFields.headSize]
    cases f.isWide <;> rfl
  rw [hplace] at hread
  have hfields := FdeFields.takes_fields context h offset hlen f.instructions
  rw [← hback] at hfound
  exact RawRecord.outcome_eq_ok_iff.mpr
    ⟨_, _, hread, Or.inr ⟨hne, _, _, _, hfound, hfields, rfl⟩⟩

end FrameItem

end ElfUnwind
