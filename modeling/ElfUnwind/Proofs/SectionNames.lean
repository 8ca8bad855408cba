import ElfUnwind.Image.Writer
import ElfUnwind.Proofs.Opening
import ElfUnwind.Proofs.Utf8RoundTrip

/-!
# Sections and the bytes of their names

Sections are kept by the text of their names, not by the bytes. Two names of different bytes keep
their sections apart as long as both are well-formed, or one of them reads without a replacement
character (`section?_of_readApart`). Other names may read alike, and then only one of their sections
is found (`brokenNames_read_alike`).
-/

namespace ElfUnwind

namespace OnDisk

open Text.Utf8

variable {bytes : List UInt8} {count i j : Nat}

/-- Why different bytes are read as different texts: both are those of some text, or one of them
shows no replacement character. -/
def ReadApart (as bs : List UInt8) : Prop :=
  (IsWellFormed as ∧ IsWellFormed bs) ∨ replacement ∉ decodeFrom none as ∨
    replacement ∉ decodeFrom none bs

theorem ReadApart.eq_of_decodeFrom_eq {as bs : List UInt8} (h : ReadApart as bs)
    (heq : decodeFrom none as = decodeFrom none bs) : as = bs := by
  rcases h with ⟨has, hbs⟩ | has | hbs
  · exact has.eq_of_decodeFrom_eq hbs heq
  · exact (replacement_notMem_iff.mp has bs heq.symm).symm
  · exact replacement_notMem_iff.mp hbs as heq

theorem sectionName_eq_iff :
    sectionName bytes i = sectionName bytes j ↔
      decodeFrom none (rawName bytes i) = decodeFrom none (rawName bytes j) := by
  rw [sectionName, sectionName, decode, decode, String.ofList_inj]

/-- Only a name without bytes is read as no name. -/
theorem sectionName_eq_empty_iff : sectionName bytes i = "" ↔ rawName bytes i = [] := by
  constructor
  · intro h
    have htext : decodeFrom none (rawName bytes i) = [] := by
      rw [← toList_decode, ← sectionName, h]
      rfl
    have hnone : replacement ∉ decodeFrom none (rawName bytes i) := htext ▸ List.not_mem_nil
    rw [← encode_decodeFrom hnone, htext, encode_nil]
  · intro h
    rw [sectionName, h]
    rfl

/-- Under a name that some section has, and that is not empty, a section is found. -/
theorem exists_get?_sectionsUpTo (hi : i < count) (hname : sectionName bytes i ≠ "") :
    ∃ found, (sectionsUpTo bytes count).get? (sectionName bytes i) = some found := by
  obtain ⟨k, hlast⟩ := exists_lastNamed_iff.mpr ⟨i, hi, rfl⟩
  exact ⟨_, get?_sectionsUpTo_eq_some_iff.mpr ⟨hname, k, hlast, rfl⟩⟩

/-! ## An image with names that are no text -/

/-- An image whose sections are named by the byte `6e`, as the table of names is, and by the bytes
`ff` and `fe`, of which neither is a text. -/
def brokenNames : List UInt8 :=
  let header : FileHeader :=
    { elfClass := .elf32, objectType := 2, machine := 3, entry := 0, segmentTable := 0,
      sectionTable := 60, flags := 0, headerSize := 52, segmentEntrySize := 32, segmentCount := 0,
      sectionEntrySize := 40, sectionCount := 4, nameTableIndex := 1 }
  let entries : List SectionEntry :=
    [ImageSource.nullEntry, ⟨1, 3, 0, 0, 52, 8⟩, ⟨3, 1, 6, 0x1000, 0, 0x10⟩,
     ⟨5, 1, 6, 0x2000, 0, 0x20⟩]
  header.encode ElfClass.elf32.ident 1 ++ [0, 0x6e, 0, 0xff, 0, 0xfe, 0, 0] ++
    entries.flatMap (ImageSource.sectionEntryBytes .elf32)

theorem opens_brokenNames (path : String) :
    ((Image.read path (Medium.ofBytes brokenNames)).ends ()).1 = .ok (image path brokenNames) := by
  refine (makes_read_image path brokenNames).eq_ok_iff.mpr ⟨?_, rfl⟩
  decide +kernel

theorem rawName_brokenNames : rawName brokenNames 1 = [0x6e] ∧ rawName brokenNames 2 = [0xff] ∧
    rawName brokenNames 3 = [0xfe] := by
  decide +kernel

/-! ## Names in an image that is open -/

/-- **Names that read apart keep their sections apart.** In an image that is open, two sections
whose names are different bytes that read apart have different names, and under each a section is
found. That section is the one with the bytes if those of all later ones are different and read
apart from them. -/
theorem section?_of_readApart {σ : Type} {path : String} {s : σ} {opened : Image σ}
    (hopened : ((Image.read path (Medium.ofBytes bytes)).ends s).1 = .ok opened) :
    (∀ i < (header bytes).sectionCount.toNat, ∀ j < (header bytes).sectionCount.toNat,
      rawName bytes i ≠ [] → rawName bytes j ≠ [] → rawName bytes i ≠ rawName bytes j →
      ReadApart (rawName bytes i) (rawName bytes j) →
        sectionName bytes i ≠ sectionName bytes j ∧
          (∃ a, opened.section? (sectionName bytes i) = some a) ∧
          ∃ b, opened.section? (sectionName bytes j) = some b) ∧
    ∀ i < (header bytes).sectionCount.toNat, rawName bytes i ≠ [] →
      (∀ j, i < j → j < (header bytes).sectionCount.toNat →
        rawName bytes j ≠ rawName bytes i ∧ ReadApart (rawName bytes j) (rawName bytes i)) →
      opened.section? (sectionName bytes i) = some (namedSection bytes i) := by
  obtain ⟨-, rfl⟩ := (makes_read_image path bytes).eq_ok_iff.mp hopened
  have hnamed {i : Nat} (h : rawName bytes i ≠ []) : sectionName bytes i ≠ "" :=
    fun hempty ↦ h (sectionName_eq_empty_iff.mp hempty)
  constructor
  · intro i hi j hj hraw hraw' hne hapart
    refine ⟨fun heq ↦ hne (hapart.eq_of_decodeFrom_eq (sectionName_eq_iff.mp heq)), ?_, ?_⟩
    · exact exists_get?_sectionsUpTo hi (hnamed hraw)
    · exact exists_get?_sectionsUpTo hj (hnamed hraw')
  · intro i hi hraw hlater
    have hlast : LastNamed bytes (header bytes).sectionCount.toNat (sectionName bytes i) i := by
      refine ⟨hi, rfl, fun j hij hj heq ↦ ?_⟩
      obtain ⟨hne, hapart⟩ := hlater j hij hj
      exact hne (hapart.eq_of_decodeFrom_eq (sectionName_eq_iff.mp heq))
    exact get?_sectionsUpTo_eq_some_iff.mpr ⟨hnamed hraw, i, hlast, rfl⟩

/-- The names of the bytes `6e` and `ff` read apart, so both sections are found. -/
theorem section?_of_readApart_brokenNames :
    ∃ opened : Image Unit,
      ((Image.read "image.elf" (Medium.ofBytes brokenNames)).ends ()).1 = .ok opened ∧
      sectionName brokenNames 1 ≠ sectionName brokenNames 2 ∧
      (∃ a, opened.section? (sectionName brokenNames 1) = some a) ∧
      ∃ b, opened.section? (sectionName brokenNames 2) = some b := by
  obtain ⟨h1, h2, -⟩ := rawName_brokenNames
  have hcount : (header brokenNames).sectionCount.toNat = 4 := by decide +kernel
  have hapart : ReadApart [0x6e] [0xff] := Or.inr (Or.inl (by decide))
  have hopened := opens_brokenNames "image.elf"
  refine ⟨_, hopened, (section?_of_readApart hopened).1 1 ?_ 2 ?_ ?_ ?_ ?_ ?_⟩
  · rw [hcount]
    decide
  · rw [hcount]
    decide
  · rw [h1]
    decide
  · rw [h2]
    decide
  · rw [h1, h2]
    decide
  · rw [h1, h2]
    exact hapart

/-- The names of the bytes `ff` and `fe` are different and not empty, and are read as one text. The
first of their sections is not found under any name. -/
theorem brokenNames_read_alike :
    ∃ opened : Image Unit,
      ((Image.read "image.elf" (Medium.ofBytes brokenNames)).ends ()).1 = .ok opened ∧
      (header brokenNames).sectionCount.toNat = 4 ∧
      rawName brokenNames 2 = [0xff] ∧ rawName brokenNames 3 = [0xfe] ∧
      sectionName brokenNames 2 = sectionName brokenNames 3 ∧
      ∀ name, opened.section? name ≠ some (namedSection brokenNames 2) := by
  obtain ⟨-, h2, h3⟩ := rawName_brokenNames
  have hcount : (header brokenNames).sectionCount.toNat = 4 := by decide +kernel
  have halike : sectionName brokenNames 2 = sectionName brokenNames 3 := by
    rw [sectionName_eq_iff, h2, h3]
    decide
  have haddress : ∀ i < 4,
      (sectionEntry brokenNames i).address = (sectionEntry brokenNames 2).address → i = 2 := by
    decide +kernel
  refine ⟨_, opens_brokenNames "image.elf", hcount, h2, h3, halike, fun name hfound ↦ ?_⟩
  obtain ⟨-, i, hlast, heq⟩ := get?_sectionsUpTo_eq_some_iff.mp hfound
  rw [hcount] at hlast
  obtain rfl := haddress i hlast.lt (congrArg Section.address heq).symm
  exact hlast.behind 3 (by decide) (by decide) (halike ▸ hlast.name_eq)

end OnDisk

end ElfUnwind
