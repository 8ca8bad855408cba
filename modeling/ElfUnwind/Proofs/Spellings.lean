import ElfUnwind.Proofs.RecordRoundTrip

/-!
# Spellings

Nothing obliges a record to be written in the shortest way. A LEB128 number may have more bytes than
it needs, and the pointer to a personality routine may be any bytes of its format. The bytes that
spell a field are described here one kind of field after the other, and the decoder takes all of
them: whatever spells the fields of a CIE is decoded to its entry (`CieSpelling.takes_fields`).
-/

namespace ElfUnwind

open BodyDecoder

/-! ## Numbers -/

namespace Leb128

/-- The bytes are one number and nothing else. -/
def IsNumber (bytes : List UInt8) : Prop := extent bytes = some bytes.length

instance (bytes : List UInt8) : Decidable (IsNumber bytes) :=
  inferInstanceAs (Decidable (_ = _))

/-- The bytes are an unsigned number and nothing else. -/
def Spells (bytes : List UInt8) (value : UInt64) : Prop :=
  decodeUnsigned bytes = some (value, bytes.length)

instance (bytes : List UInt8) (value : UInt64) : Decidable (Spells bytes value) :=
  inferInstanceAs (Decidable (_ = _))

/-- The bytes are a signed number and nothing else. -/
def SpellsSigned (bytes : List UInt8) (value : Int64) : Prop :=
  decodeSigned bytes = some (value, bytes.length)

instance (bytes : List UInt8) (value : Int64) : Decidable (SpellsSigned bytes value) :=
  inferInstanceAs (Decidable (_ = _))

variable {bytes : List UInt8}

theorem IsNumber.exists_spells (h : IsNumber bytes) : ∃ value, Spells bytes value := by
  obtain ⟨r, hscan, hused⟩ := exists_scan_of_extent 0 h
  exact ⟨r.bits, by rw [Spells, decodeUnsigned, hscan, Option.map_some, hused]⟩

theorem IsNumber.exists_spellsSigned (h : IsNumber bytes) : ∃ value, SpellsSigned bytes value := by
  obtain ⟨r, hscan, hused⟩ := exists_scan_of_extent 0 h
  exact ⟨r.signed, by rw [SpellsSigned, decodeSigned, hscan, Option.map_some, hused]⟩

theorem Spells.append {value : UInt64} (h : Spells bytes value) (tail : List UInt8) :
    decodeUnsigned (bytes ++ tail) = some (value, bytes.length) := by
  obtain ⟨r, hscan, hvalue⟩ := Option.map_eq_some_iff.mp h
  rw [decodeUnsigned, scan_append hscan (congrArg Prod.snd hvalue), Option.map_some, hvalue]

theorem SpellsSigned.append {value : Int64} (h : SpellsSigned bytes value) (tail : List UInt8) :
    decodeSigned (bytes ++ tail) = some (value, bytes.length) := by
  obtain ⟨r, hscan, hvalue⟩ := Option.map_eq_some_iff.mp h
  rw [decodeSigned, scan_append hscan (congrArg Prod.snd hvalue), Option.map_some, hvalue]

end Leb128

namespace Read

variable {bytes : List UInt8}

theorem takes_uleb128_of_spells {value : UInt64} (h : Leb128.Spells bytes value) (place : Nat) :
    uleb128.Takes place bytes value := by
  intro tail
  simp only [uleb128, h.append tail, Span.drop, List.drop_left]

theorem takes_sleb128_of_spells {value : Int64} (h : Leb128.SpellsSigned bytes value)
    (place : Nat) : sleb128.Takes place bytes value := by
  intro tail
  simp only [sleb128, h.append tail, Span.drop, List.drop_left]

/-- Bytes of the right number are a number of that width. -/
theorem exists_takes_unsigned {width : UInt8} (hw : isWidth width = true)
    (hlen : bytes.length = width.toNat) (place : Nat) :
    ∃ value, (unsigned width).Takes place bytes value := by
  have hbytes := takes_bytes place bytes
  rw [hlen] at hbytes
  rw [unsigned, if_pos hw]
  exact ⟨_, hbytes.map fun front ↦ UInt64.ofNat (LittleEndian.toNat front)⟩

theorem exists_takes_signed {width : UInt8} (hw : isWidth width = true) (hne : width ≠ 1)
    (hlen : bytes.length = width.toNat) (place : Nat) :
    ∃ value, (Int64.toUInt64 <$> signed width).Takes place bytes value := by
  have hbytes := takes_bytes place bytes
  rw [hlen] at hbytes
  rw [signed, if_pos ⟨hw, hne⟩]
  exact ⟨_, (hbytes.map fun front ↦
    Int64.ofInt (LittleEndian.signed width.toNat (LittleEndian.toNat front))).map Int64.toUInt64⟩

end Read

/-! ## Pointers -/

namespace ValueFormat

variable {addressSize : UInt8} {bytes : List UInt8}

/-- The bytes are one value of the format, if there are fields of its width. -/
def IsValue (addressSize : UInt8) (bytes : List UInt8) (format : ValueFormat) : Prop :=
  (format = absptr → Read.isWidth addressSize = true) ∧
    (∀ width ∈ format.width? addressSize, bytes.length = width) ∧
    (format.width? addressSize = none → Leb128.IsNumber bytes)

instance (addressSize : UInt8) (bytes : List UInt8) (format : ValueFormat) :
    Decidable (format.IsValue addressSize bytes) :=
  inferInstanceAs (Decidable (_ ∧ _ ∧ _))

theorem IsValue.exists_takes_read {format : ValueFormat} (h : format.IsValue addressSize bytes)
    (place : Nat) : ∃ value, (format.read addressSize).Takes place bytes value := by
  obtain ⟨hsize, hwidth, hnumber⟩ := h
  cases format with
  | absptr => exact Read.exists_takes_unsigned (hsize rfl) (hwidth _ rfl) place
  | uleb128 =>
    obtain ⟨value, hvalue⟩ := (hnumber rfl).exists_spells
    exact ⟨value, Read.takes_uleb128_of_spells hvalue place⟩
  | udata2 => exact Read.exists_takes_unsigned Read.isWidth_two (hwidth _ rfl) place
  | udata4 => exact Read.exists_takes_unsigned Read.isWidth_four (hwidth _ rfl) place
  | udata8 => exact Read.exists_takes_unsigned Read.isWidth_eight (hwidth _ rfl) place
  | sleb128 =>
    obtain ⟨value, hvalue⟩ := (hnumber rfl).exists_spellsSigned
    exact ⟨value.toUInt64, (Read.takes_sleb128_of_spells hvalue place).map Int64.toUInt64⟩
  | sdata2 => exact Read.exists_takes_signed Read.isWidth_two (by decide) (hwidth _ rfl) place
  | sdata4 => exact Read.exists_takes_signed Read.isWidth_four (by decide) (hwidth _ rfl) place
  | sdata8 => exact Read.exists_takes_signed Read.isWidth_eight (by decide) (hwidth _ rfl) place

end ValueFormat

namespace PointerEncoding

variable {e : PointerEncoding} {addressSize : UInt8} {bytes : List UInt8}

/-- The bytes are one pointer in an encoding whose format is defined. -/
def IsPointer (e : PointerEncoding) (addressSize : UInt8) (bytes : List UInt8) : Prop :=
  ∃ format ∈ e.format?, format.IsValue addressSize bytes

instance (e : PointerEncoding) (addressSize : UInt8) (bytes : List UInt8) :
    Decidable (e.IsPointer addressSize bytes) :=
  inferInstanceAs (Decidable (∃ format ∈ e.format?, _))

theorem IsPointer.exists_takes_read (h : e.IsPointer addressSize bytes) (place : Nat) :
    ∃ value, (e.read addressSize).Takes place bytes (some value) := by
  obtain ⟨format, hformat, hvalue⟩ := h
  obtain ⟨value, hread⟩ := hvalue.exists_takes_read place
  rw [read_eq (ne_omitted_of_format? hformat) hformat]
  exact ⟨value, hread.map some⟩

end PointerEncoding

/-! ## Augmentation data -/

namespace Augmentation

variable {addressSize : UInt8} {a : Augmentation} {letters : List Augmentation}
  {bytes : List UInt8}

/-- The bytes are the data of a letter. Which personality routine they point to does not matter. -/
def HasData (addressSize : UInt8) (bytes : List UInt8) : Augmentation → Prop
  | address e => bytes = [e.byte]
  | personality e _ => ∃ pointer, bytes = e.byte :: pointer ∧
      (e = .omitted ∧ pointer = [] ∨ e.IsPointer addressSize pointer)
  | lsda e => bytes = [e.byte]

/-- The bytes are the data of some letters, one behind the other. -/
inductive HaveData (addressSize : UInt8) : List Augmentation → List UInt8 → Prop
  | nil : HaveData addressSize [] []
  | cons {a : Augmentation} {letters : List Augmentation} {front back : List UInt8} :
      a.HasData addressSize front → HaveData addressSize letters back →
        HaveData addressSize (a :: letters) (front ++ back)

theorem HasData.takes_letterData (h : a.HasData addressSize bytes) (malformed : Error)
    (data : AugmentationData) (place : Nat) :
    (silent (Cie.letterData addressSize malformed data a.letter)).Takes place bytes
      (a.settle data) := by
  rw [Cie.silent_letterData]
  cases a with
  | address e =>
    obtain rfl : bytes = [e.byte] := h
    rw [show letter (address e) = 'R' from rfl, if_pos rfl]
    exact (Read.takes_byte place e.byte).bind_pure _
  | personality e value =>
    obtain ⟨pointer, rfl, hpointer⟩ := h
    rw [show letter (personality e value) = 'P' from rfl, if_neg (by decide), if_pos rfl]
    have hread : ∃ value, (e.read addressSize).Takes (place + 1) pointer value := by
      rcases hpointer with ⟨rfl, rfl⟩ | hpointer
      · exact ⟨none, Read.Takes.pure none _⟩
      · obtain ⟨value, hread⟩ := hpointer.exists_takes_read (place + 1)
        exact ⟨some value, hread⟩
    obtain ⟨value, hread⟩ := hread
    exact (Read.takes_byte place e.byte).bind (hread.bind_pure _)
  | lsda e =>
    obtain rfl : bytes = [e.byte] := h
    rw [show letter (lsda e) = 'L' from rfl, if_neg (by decide), if_neg (by decide), if_pos rfl]
    exact (Read.takes_byte place e.byte).bind_pure _

theorem HaveData.takes_letters (h : HaveData addressSize letters bytes) (malformed : Error)
    (data : AugmentationData) (place : Nat) :
    ((letters.map letter).foldlM
        (fun data c ↦ silent (Cie.letterData addressSize malformed data c)) data).Takes place bytes
      (letters.foldl settle data) := by
  induction h generalizing data place with
  | nil => exact Read.Takes.pure data place
  | cons ha _ ih =>
    rw [List.map_cons, List.foldlM_cons, List.foldl_cons]
    exact (ha.takes_letterData malformed data place).bind (ih _ _)

/-- Of several letters that settle how pointers to language-specific data are stored, the last
counts. -/
theorem lsda_foldl_settle {before after : List Augmentation} {e : PointerEncoding}
    (hlast : ∀ e', lsda e' ∉ after) (data : AugmentationData) :
    ((before ++ lsda e :: after).foldl settle data).lsda = e := by
  rw [List.foldl_append, List.foldl_cons]
  generalize before.foldl settle data = settled
  have hkeeps : ∀ data : AugmentationData, (after.foldl settle data).lsda = data.lsda := by
    induction after with
    | nil => exact fun _ ↦ rfl
    | cons a after ih =>
      intro data
      rw [List.foldl_cons, ih fun e' he' ↦ hlast e' (List.mem_cons_of_mem a he')]
      cases a with
      | address e' => rfl
      | personality e' value => rfl
      | lsda e' => exact absurd List.mem_cons_self (hlast e')
  exact hkeeps _

end Augmentation

/-! ## The fields of a CIE -/

/-- How the fields of a CIE are written. -/
structure CieSpelling where
  /-- The factor of code offsets. -/
  codeAlignment : List UInt8
  /-- The factor of data offsets. -/
  dataAlignment : List UInt8
  /-- The return address register. -/
  returnRegister : List UInt8
  /-- The length of the augmentation data, which may be any number. -/
  length : List UInt8
  /-- The augmentation data. -/
  data : List UInt8
  deriving DecidableEq, Repr

namespace CieSpelling

variable {context : FrameContext} {c : CieFields} {s : CieSpelling}

/-- The bytes between the identifier and the instructions. -/
def bytes (c : CieFields) (s : CieSpelling) : List UInt8 :=
  [c.version] ++ (c.augmentationText ++ [0]) ++
    (if 4 ≤ c.version then [c.addressSize, c.segmentSize] else []) ++ s.codeAlignment ++
    s.dataAlignment ++ s.returnRegister ++ (s.length ++ s.data)

/-- The parts spell the fields of a CIE. -/
structure Spells (context : FrameContext) (c : CieFields) (s : CieSpelling) : Prop where
  codeAlignment : Leb128.Spells s.codeAlignment c.codeAlignment
  dataAlignment : Leb128.SpellsSigned s.dataAlignment c.dataAlignment
  /-- A byte in version 1, a number from then on. -/
  returnRegister : if c.version = 1 then s.returnRegister.map UInt8.toUInt64 = [c.returnRegister]
    else Leb128.Spells s.returnRegister c.returnRegister
  /-- Without an augmentation string there are neither data nor their length. -/
  augmentation : match c.augmentation with
    | none => s.length = [] ∧ s.data = []
    | some letters => Leb128.IsNumber s.length ∧
        Augmentation.HaveData (c.effectiveSize context) letters s.data

theorem Spells.takes_returnRegister (h : s.Spells context c) (place : Nat) :
    (Cie.returnRegister c.version).Takes place s.returnRegister c.returnRegister := by
  have hregister := h.returnRegister
  rw [Cie.returnRegister]
  by_cases hv : c.version = 1
  · rw [if_pos hv] at hregister ⊢
    obtain ⟨b, hbytes, hb⟩ := List.map_eq_singleton_iff.mp hregister
    rw [hbytes, ← hb]
    exact (Read.takes_byte place b).map UInt8.toUInt64
  · rw [if_neg hv] at hregister ⊢
    exact Read.takes_uleb128_of_spells hregister place

theorem Spells.takes_augmentationData (h : s.Spells context c) (malformed : Error) (place : Nat) :
    (silent (Cie.augmentationData (c.effectiveSize context) malformed
        (String.ofList c.augmentationString))).Takes place (s.length ++ s.data)
      c.augmentationData := by
  have haugmentation := h.augmentation
  rw [Cie.silent_augmentationData, String.toList_ofList, CieFields.augmentationString,
    CieFields.augmentationData]
  cases haug : c.augmentation with
  | none =>
    simp only [haug] at haugmentation
    rw [haugmentation.1, haugmentation.2]
    exact Read.Takes.pure _ place
  | some letters =>
    simp only [haug] at haugmentation
    obtain ⟨hlength, hdata⟩ := haugmentation
    obtain ⟨length, hlength⟩ := hlength.exists_spells
    rw [if_pos (List.head?_cons ..), List.tail_cons]
    exact (Read.takes_uleb128_of_spells hlength place).bind (hdata.takes_letters malformed {} _)

/-- **Every spelling is read as the fields.** -/
theorem Spells.takes_fields (h : s.Spells context c) (offset place : Nat) :
    (silent (Cie.fields context offset c.isWide)).Takes place (s.bytes c)
      { c.entry context offset with instructions := [] } :=
  CieFields.takes_fields_of offset place (Read.takes_uleb128_of_spells h.codeAlignment)
    (Read.takes_sleb128_of_spells h.dataAlignment) h.takes_returnRegister h.takes_augmentationData

end CieSpelling

end ElfUnwind
