import ElfUnwind.Bytes.Fields
import ElfUnwind.Elf.ElfClass
import ElfUnwind.Text.Utf8

/-!
# Sections

An entry of the section table gives the name of a section only as an offset into a table of names.
The name is the text from there to the next zero byte, or to the end of that table; an offset
outside the table gives the empty name, which stands for no name.
-/

namespace ElfUnwind

/-- The names of the kinds of sections. -/
def sectionTypeNames : List (UInt32 × String) :=
  [(0, "SHT_NULL"), (1, "SHT_PROGBITS"), (2, "SHT_SYMTAB"), (3, "SHT_STRTAB"), (4, "SHT_RELA"),
   (5, "SHT_HASH"), (6, "SHT_DYNAMIC"), (7, "SHT_NOTE"), (8, "SHT_NOBITS"), (9, "SHT_REL"),
   (10, "SHT_SHLIB"), (11, "SHT_DYNSYM"), (14, "SHT_INIT_ARRAY"), (15, "SHT_FINI_ARRAY"),
   (16, "SHT_PREINIT_ARRAY"), (17, "SHT_GROUP"), (18, "SHT_SYMTAB_SHNDX"), (19, "SHT_NUM"),
   (0x60000000, "SHT_LOOS"), (0x6ffffff5, "SHT_GNU_ATTRIBUTES"), (0x6ffffff6, "SHT_GNU_HASH"),
   (0x6ffffff7, "SHT_GNU_LIBLIST"), (0x6ffffff8, "SHT_CHECKSUM"), (0x6ffffffa, "SHT_SUNW_MOVE"),
   (0x6ffffffb, "SHT_SUNW_COMDAT"), (0x6ffffffc, "SHT_SUNW_SYMINFO"),
   (0x6ffffffd, "SHT_GNU_VERDEF"), (0x6ffffffe, "SHT_GNU_VERNEED"), (0x6fffffff, "SHT_GNU_VERSYM"),
   (0x70000000, "SHT_LOPROC"), (0x70000001, "SHT_X86_64_UNWIND"), (0x7fffffff, "SHT_HIPROC"),
   (0x80000000, "SHT_LOUSER"), (0x8fffffff, "SHT_HIUSER")]

/-- A named section. -/
structure Section where
  /-- The name. -/
  name : String
  /-- The number of its kind. -/
  kind : UInt32
  /-- Its attributes. -/
  flags : UInt64
  /-- Where it lies in memory once it is mapped. -/
  address : UInt64
  /-- Where its contents lie in the image. -/
  offset : UInt64
  /-- How many bytes it has. -/
  size : UInt64
  deriving DecidableEq, Repr

namespace Section

/-- The name of its kind. -/
def typeName (s : Section) : String := (sectionTypeNames.lookup s.kind).getD "UNKNOWN_SHT"

/-- Whether an address lies in the mapped section. -/
def contains (s : Section) (address : UInt64) : Bool :=
  s.address ≤ address && address - s.address < s.size

theorem contains_iff {s : Section} {address : UInt64} :
    s.contains address = true ↔
      s.address.toNat ≤ address.toNat ∧ address.toNat < s.address.toNat + s.size.toNat := by
  simp only [contains, Bool.and_eq_true, decide_eq_true_eq, UInt64.le_iff_toNat_le,
    UInt64.lt_iff_toNat_lt]
  constructor
  · rintro ⟨h₁, h₂⟩
    rw [UInt64.toNat_sub_of_le _ _ (UInt64.le_iff_toNat_le.mpr h₁)] at h₂
    omega
  · rintro ⟨h₁, h₂⟩
    refine ⟨h₁, ?_⟩
    rw [UInt64.toNat_sub_of_le _ _ (UInt64.le_iff_toNat_le.mpr h₁)]
    omega

end Section

/-- An entry of the section table. -/
structure SectionEntry where
  /-- Where the name begins in the table of names. -/
  nameOffset : UInt32
  /-- The number of its kind. -/
  kind : UInt32
  /-- Its attributes. -/
  flags : UInt64
  /-- Where it lies in memory once it is mapped. -/
  address : UInt64
  /-- Where its contents lie in the image. -/
  offset : UInt64
  /-- How many bytes it has. -/
  size : UInt64
  deriving DecidableEq, Repr

namespace SectionEntry

/-- The section of an entry whose name is known. -/
def named (e : SectionEntry) (name : String) : Section :=
  { name, kind := e.kind, flags := e.flags, address := e.address, offset := e.offset,
    size := e.size }

/-- The fields of an entry in their order, up to the last that is used. -/
def fields (c : ElfClass) : Fields SectionEntry := do
  let nameOffset ← Fields.word
  let kind ← Fields.word
  let flags ← Fields.wide c.wordSize
  let address ← Fields.wide c.wordSize
  let offset ← Fields.wide c.wordSize
  let size ← Fields.wide c.wordSize
  return { nameOffset, kind, flags, address, offset, size }

/-- The entry at the front of some bytes. -/
def decode? (c : ElfClass) (bytes : List UInt8) : Option SectionEntry := (fields c).decode? bytes

/-- The bytes of an entry up to the last field that is used. -/
def encode (c : ElfClass) (e : SectionEntry) : List UInt8 :=
  let word (n : UInt64) := LittleEndian.ofNat c.wordSize n.toNat
  LittleEndian.ofNat 4 e.nameOffset.toNat ++ LittleEndian.ofNat 4 e.kind.toNat ++ word e.flags ++
    word e.address ++ word e.offset ++ word e.size

theorem length_encode (c : ElfClass) (e : SectionEntry) :
    (e.encode c).length = 8 + 4 * c.wordSize := by
  simp [encode]
  omega

end SectionEntry

/-- The bytes of the name at `offset` in a table of names. -/
def nameBytes (table : List UInt8) (offset : UInt32) : List UInt8 :=
  (table.drop offset.toNat).takeWhile (· ≠ 0)

/-- The name at `offset` in a table of names. -/
def nameAt (table : List UInt8) (offset : UInt32) : String :=
  Text.Utf8.decode (nameBytes table offset)

theorem nameAt_of_ge {table : List UInt8} {offset : UInt32} (h : table.length ≤ offset.toNat) :
    nameAt table offset = "" := by
  simp [nameAt, nameBytes, List.drop_of_length_le h, Text.Utf8.decode, Text.Utf8.decodeFrom]

end ElfUnwind
