import ElfUnwind.Proofs.BackReferences
import ElfUnwind.Proofs.Spellings

/-!
# Pointers to language-specific data

An FDE has a pointer to language-specific data in front of its instructions if the letter `L` of its
CIE declares one. The length of the augmentation data is not made use of, so what keeps the pointer
out of the instructions is that the decoder finds it declared and reads it in the declared encoding
(`RawRecord.instructions_of_lsda`). The byte zero stands for no pointer, also where an `L` declares
it.
-/

namespace ElfUnwind

open BodyDecoder

/-! ## FDEs with a pointer -/

/-- The bytes of an FDE behind its identifier, if its augmentation data are one pointer. -/
structure FdeParts where
  /-- The first address of the function. -/
  location : List UInt8
  /-- The length of its range. -/
  range : List UInt8
  /-- The length of the augmentation data. -/
  length : List UInt8
  /-- The pointer to language-specific data. -/
  lsda : List UInt8
  /-- The instructions. -/
  instructions : List UInt8
  deriving DecidableEq, Repr

namespace FdeParts

variable {cie : Cie} {f : FdeParts}

/-- The bytes in front of the instructions. -/
def fieldBytes (f : FdeParts) : List UInt8 := f.location ++ f.range ++ f.length ++ f.lsda

/-- The parts are those of an FDE with a CIE and a pointer in an encoding. -/
structure WellFormed (cie : Cie) (e : PointerEncoding) (f : FdeParts) : Prop where
  location : cie.addressEncoding.IsPointer cie.addressSize f.location
  range : cie.addressEncoding.IsPointer cie.addressSize f.range
  /-- The augmentation data are the pointer. -/
  length : Leb128.Spells f.length (UInt64.ofNat f.lsda.length)
  lsda : e.IsPointer cie.addressSize f.lsda

theorem exists_takes_pointer {e : PointerEncoding} {addressSize : UInt8} {bytes : List UInt8}
    (h : e.IsPointer addressSize bytes) (place : Nat) :
    ∃ value, (silent (Fde.pointer e addressSize)).Takes place bytes value := by
  obtain ⟨value, hread⟩ := h.exists_takes_read place
  refine ⟨value, ?_⟩
  rw [Fde.silent_pointer]
  rw [← List.append_nil bytes]
  exact hread.bind (Read.Takes.pure value _)

theorem WellFormed.takes_passLength {e : PointerEncoding} (h : f.WellFormed cie e)
    (haugmentation : cie.hasAugmentationData = true) (place : Nat) :
    (silent (Fde.passLength cie)).Takes place f.length () := by
  rw [Fde.passLength, if_pos haugmentation]
  simp only [silent_bind, silent_read, silent_tell]
  exact (Read.takes_uleb128_of_spells h.length place).bind_pure _

theorem WellFormed.takes_passLsda (h : f.WellFormed cie cie.lsdaEncoding)
    (hlsda : cie.hasLsda = true) (place : Nat) :
    (silent (Fde.passLsda cie)).Takes place f.lsda () := by
  obtain ⟨value, hread⟩ := h.lsda.exists_takes_read place
  rw [Fde.passLsda, if_pos hlsda]
  simp only [silent_bind, silent_read, silent_tell]
  exact hread.bind_pure _

/-- **The fields of an FDE are its parts** up to the pointer, if the CIE declares it. -/
theorem WellFormed.exists_takes_fields (h : f.WellFormed cie cie.lsdaEncoding)
    (haugmentation : cie.hasAugmentationData = true) (hlsda : cie.hasLsda = true)
    (context : FrameContext) (offset place : Nat) (isWide : Bool) :
    ∃ head, (silent (Fde.fields context offset isWide cie)).Takes place f.fieldBytes head := by
  obtain ⟨initial, hinitial⟩ := exists_takes_pointer h.location place
  obtain ⟨length, hlength⟩ := exists_takes_pointer h.range (place + f.location.length)
  let start := Fde.address context cie.addressEncoding place initial
  refine ⟨⟨offset, cie, start, start + length, isWide, []⟩, ?_⟩
  simp only [Fde.fields, silent_bind, silent_tell, silent_pure, silent_offset, pure_bind,
    fieldBytes, List.append_assoc]
  refine Read.Takes.offset_bind ?_
  refine hinitial.bind (hlength.bind ((h.takes_passLength haugmentation _).bind ?_))
  exact (h.takes_passLsda hlsda _).bind_pure _

end FdeParts

namespace CieFields

variable {context : FrameContext} {c : CieFields} {before after : List Augmentation}
  {e : PointerEncoding} {offset : Nat}

theorem lsdaEncoding_entry (hletters : c.augmentation = some (before ++ .lsda e :: after))
    (hlast : ∀ e', .lsda e' ∉ after) : (c.entry context offset).lsdaEncoding = e := by
  rw [entry, augmentationData, hletters, Option.getD_some]
  exact Augmentation.lsda_foldl_settle hlast {}

theorem hasAugmentationData_entry {letters : List Augmentation}
    (hletters : c.augmentation = some letters) :
    (c.entry context offset).hasAugmentationData = true := by
  simp [Cie.hasAugmentationData, entry, augmentationString, hletters]

end CieFields

/-! ## Records with a pointer -/

namespace RawRecord

variable {context context' : FrameContext} {index later : FrameIndex} {r q : RawRecord}
  {reference : UInt64} {cie : Cie} {c : CieFields} {s : CieSpelling} {f : FdeParts}
  {before after : List Augmentation} {e : PointerEncoding}

/-- The record is that of a CIE. -/
def IsCie (context : FrameContext) (r : RawRecord) : Prop :=
  ∃ s, readId r.isWide r.body = .ok (context.kind.cieId, s)

/-- **A CIE is decoded to its entry**, however its fields are spelled. -/
theorem outcome_of_cieSpelling (hcie : r.IsCie context) (hwide : r.isWide = c.isWide)
    (hs : s.Spells context c) (hbytes : r.afterId.bytes = s.bytes c ++ c.instructions) :
    r.outcome context index = .ok (index.insertCie (c.entry context r.offset)) := by
  obtain ⟨t, hid⟩ := hcie
  have hfields := hs.takes_fields r.offset r.afterId.offset c.instructions
  rw [← hbytes, ← hwide] at hfields
  change silent (Cie.fields context r.offset r.isWide) r.afterId = _ at hfields
  rw [show r.afterId = t from (drop_of_readId hid).2.symm] at hfields
  exact outcome_eq_ok_iff.mpr ⟨_, t, hid, Or.inl ⟨rfl, _, _, hfields, rfl⟩⟩

/-- An FDE with a pointer that its CIE declares is decoded, and its instructions are what follows
the pointer. -/
theorem exists_outcome_of_fdeParts (hrefers : r.RefersTo context reference)
    (hfound : index.cie? reference.toNat = some cie)
    (haugmentation : cie.hasAugmentationData = true) (hlsda : cie.hasLsda = true)
    (hf : f.WellFormed cie cie.lsdaEncoding)
    (hbytes : r.afterId.bytes = f.fieldBytes ++ f.instructions) :
    ∃ fde, r.outcome context index = .ok (index.insertFde fde) ∧ fde.offset = r.offset ∧
      fde.cie = cie ∧ fde.instructions = f.instructions := by
  obtain ⟨id, t, hid, hne, rfl⟩ := hrefers
  obtain ⟨head, htakes⟩ := hf.exists_takes_fields haugmentation hlsda context r.offset
    r.afterId.offset r.isWide
  have hfields := htakes f.instructions
  rw [← hbytes] at hfields
  change silent (Fde.fields context r.offset r.isWide cie) r.afterId = _ at hfields
  rw [show r.afterId = t from (drop_of_readId hid).2.symm] at hfields
  have hoffset := Fde.yields_fields cie _ _ head hfields
  have hhead := (Fde.yields_fields_isDefined cie _ _ head hfields).1
  refine ⟨{ head with instructions := f.instructions }, ?_, hoffset, hhead, rfl⟩
  exact outcome_eq_ok_iff.mpr ⟨id, t, hid, Or.inr ⟨hne, cie, head, _, hfound, hfields, rfl⟩⟩

/-- **No pointer gets into the instructions** unless its encoding is the byte zero. The CIE may
spell its fields in any way and have other letters in front of the last `L` and behind it, and its
FDE may stand in any pass that has come to it with the CIE in the index. -/
theorem instructions_of_lsda (hcie : r.IsCie context) (hwide : r.isWide = c.isWide)
    (hs : s.Spells context c) (hbytes : r.afterId.bytes = s.bytes c ++ c.instructions)
    (hletters : c.augmentation = some (before ++ .lsda e :: after))
    (hlast : ∀ e', .lsda e' ∉ after) (hzero : e.byte ≠ 0)
    (hrefers : q.RefersTo context' reference)
    (hfound : later.cie? reference.toNat = some (c.entry context r.offset))
    (hf : f.WellFormed (c.entry context r.offset) e)
    (hparts : q.afterId.bytes = f.fieldBytes ++ f.instructions) :
    r.outcome context index = .ok (index.insertCie (c.entry context r.offset)) ∧
      ∃ fde, q.outcome context' later = .ok (later.insertFde fde) ∧ fde.offset = q.offset ∧
        fde.cie = c.entry context r.offset ∧ fde.instructions = f.instructions := by
  have he : (c.entry context r.offset).lsdaEncoding = e := c.lsdaEncoding_entry hletters hlast
  have hdefined : e ≠ .omitted := by
    obtain ⟨format, hformat, -⟩ := hf.lsda
    exact PointerEncoding.ne_omitted_of_format? hformat
  have hlsda : (c.entry context r.offset).hasLsda = true := by
    rw [Cie.hasLsda, he, decide_eq_true_iff]
    exact ⟨hzero, hdefined⟩
  refine ⟨outcome_of_cieSpelling hcie hwide hs hbytes, ?_⟩
  rw [← he] at hf
  exact exists_outcome_of_fdeParts hrefers hfound (c.hasAugmentationData_entry hletters) hlsda hf
    hparts

/-- A CIE with a personality routine and the pointer to language-specific data in an encoding. -/
def lsdaCie (e : PointerEncoding) : CieFields :=
  ⟨false, 1, some [.personality .absptr 0xdeadbeef, .lsda e], 0, 0, 1, -4, 8, [12, 4, 4]⟩

/-- A spelling of its fields in which two numbers are longer than they need to be. -/
def lsdaSpelling (e : PointerEncoding) : CieSpelling :=
  ⟨[0x81, 0], [0x7c], [8], [0x86, 0], [0, 0xef, 0xbe, 0xad, 0xde, e.byte]⟩

/-- An FDE with a pointer of four bytes. -/
def lsdaFde : FdeParts :=
  ⟨LittleEndian.ofNat 4 0x4000, LittleEndian.ofNat 4 0x20, [4], LittleEndian.ofNat 4 0x5000, [0x41]⟩

/-- The record of the CIE, at the start of a section. -/
def lsdaCieRecord (e : PointerEncoding) : RawRecord :=
  ⟨0, false, ⟨4, FrameItem.idField false 0 ++ ((lsdaSpelling e).bytes (lsdaCie e) ++
    (lsdaCie e).instructions)⟩⟩

/-- The record of the FDE, behind it. -/
def lsdaFdeRecord : RawRecord :=
  ⟨28, false, ⟨32, FrameItem.idField false 32 ++ (lsdaFde.fieldBytes ++ lsdaFde.instructions)⟩⟩

theorem spells_lsdaSpelling (e : PointerEncoding) :
    (lsdaSpelling e).Spells ⟨.ehFrame, 0x1000, 4⟩ (lsdaCie e) where
  codeAlignment := show Leb128.Spells [0x81, 0] 1 by decide
  dataAlignment := show Leb128.SpellsSigned [0x7c] (-4) by decide
  returnRegister := rfl
  augmentation := by
    have hpersonality : (Augmentation.personality .absptr 0xdeadbeef).HasData 4
        [0, 0xef, 0xbe, 0xad, 0xde] := ⟨[0xef, 0xbe, 0xad, 0xde], rfl, Or.inr (by decide)⟩
    have hlsda : (Augmentation.lsda e).HasData 4 [e.byte] := rfl
    have hlength : Leb128.IsNumber [0x86, 0] := by decide
    exact ⟨hlength, .cons hpersonality (.cons hlsda .nil)⟩

/-- The parts of the FDE are as its CIE says, if the encoding has a format of four bytes. -/
theorem wellFormed_lsdaFde {e : PointerEncoding} (h : e.IsPointer 4 lsdaFde.lsda) :
    lsdaFde.WellFormed ((lsdaCie e).entry ⟨.ehFrame, 0x1000, 4⟩ 0) e where
  location := show PointerEncoding.absptr.IsPointer 4 lsdaFde.location by decide
  range := show PointerEncoding.absptr.IsPointer 4 lsdaFde.range by decide
  length := by decide
  lsda := h

theorem instructions_of_lsda_sdata4 :
    (lsdaCieRecord ⟨0x1b⟩).outcome ⟨.ehFrame, 0x1000, 4⟩ (FrameIndex.empty .ehFrame) =
        .ok ((FrameIndex.empty .ehFrame).insertCie
          ((lsdaCie ⟨0x1b⟩).entry ⟨.ehFrame, 0x1000, 4⟩ 0)) ∧
      ∃ fde, lsdaFdeRecord.outcome ⟨.ehFrame, 0x1000, 4⟩ ((FrameIndex.empty .ehFrame).insertCie
          ((lsdaCie ⟨0x1b⟩).entry ⟨.ehFrame, 0x1000, 4⟩ 0)) =
            .ok (((FrameIndex.empty .ehFrame).insertCie
              ((lsdaCie ⟨0x1b⟩).entry ⟨.ehFrame, 0x1000, 4⟩ 0)).insertFde fde) ∧
        fde.offset = 28 ∧ fde.cie = (lsdaCie ⟨0x1b⟩).entry ⟨.ehFrame, 0x1000, 4⟩ 0 ∧
        fde.instructions = [0x41] := by
  have hcie : (lsdaCieRecord ⟨0x1b⟩).IsCie ⟨.ehFrame, 0x1000, 4⟩ := ⟨_, rfl⟩
  have hrefers : lsdaFdeRecord.RefersTo ⟨.ehFrame, 0x1000, 4⟩ 0 :=
    ⟨32, _, rfl, by decide, by decide⟩
  have hletters : (lsdaCie ⟨0x1b⟩).augmentation =
      some ([.personality .absptr 0xdeadbeef] ++ .lsda ⟨0x1b⟩ :: []) := rfl
  have hfound := FrameIndex.cie?_insertCie_self
    ((lsdaCie ⟨0x1b⟩).entry ⟨.ehFrame, 0x1000, 4⟩ 0) (FrameIndex.empty .ehFrame)
  exact instructions_of_lsda hcie rfl (spells_lsdaSpelling ⟨0x1b⟩) rfl hletters (by simp)
    (by decide) hrefers hfound (wellFormed_lsdaFde (by decide)) rfl

/-- The byte zero stands for no pointer, so what an `L` with that byte would declare, a pointer as
wide as an address, begins the instructions. -/
theorem instructions_absptr :
    (lsdaSpelling .absptr).Spells ⟨.ehFrame, 0x1000, 4⟩ (lsdaCie .absptr) ∧
      lsdaFde.WellFormed ((lsdaCie .absptr).entry ⟨.ehFrame, 0x1000, 4⟩ 0) .absptr ∧
      ((FrameIndex.empty .ehFrame).decodeInto ⟨.ehFrame, 0x1000, 4⟩
          (FrameItem.frame false (lsdaCieRecord .absptr).body.bytes ++
            FrameItem.frame false lsdaFdeRecord.body.bytes)).value.1 = .ok () ∧
      ((FrameIndex.empty .ehFrame).decodeInto ⟨.ehFrame, 0x1000, 4⟩
          (FrameItem.frame false (lsdaCieRecord .absptr).body.bytes ++
            FrameItem.frame false lsdaFdeRecord.body.bytes)).value.2.fdes.values.map
        Fde.instructions = [lsdaFde.lsda ++ lsdaFde.instructions] :=
  ⟨spells_lsdaSpelling .absptr, wellFormed_lsdaFde (by decide), by cbv, by cbv⟩

end RawRecord

end ElfUnwind
