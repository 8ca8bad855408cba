import ElfUnwind.Bytes.Fields
import ElfUnwind.Elf.ElfClass

/-!
# The file header

The file header says what kind of object the image is and where its two tables lie. Fields that are
as wide as an address are kept with 64 bits in both classes.
-/

namespace ElfUnwind

/-- The header at the front of an image. -/
structure FileHeader where
  /-- How wide the addresses are. -/
  elfClass : ElfClass
  /-- The kind of object file. -/
  objectType : UInt16
  /-- The target architecture. -/
  machine : UInt16
  /-- The address execution starts at. -/
  entry : UInt64
  /-- Where the segment table begins. -/
  segmentTable : UInt64
  /-- Where the section table begins. -/
  sectionTable : UInt64
  /-- Flags of the architecture. -/
  flags : UInt32
  /-- The size the header declares for itself. -/
  headerSize : UInt16
  /-- The distance of entries of the segment table. -/
  segmentEntrySize : UInt16
  /-- How many segments there are. -/
  segmentCount : UInt16
  /-- The distance of entries of the section table. -/
  sectionEntrySize : UInt16
  /-- How many sections there are. -/
  sectionCount : UInt16
  /-- Which section holds the section names. -/
  nameTableIndex : UInt16
  deriving DecidableEq, Repr

/-- The names of the kinds of object files. -/
def objectTypeNames : List (UInt16 × String) :=
  [(0, "NONE"), (1, "REL"), (2, "EXEC"), (3, "DYN"), (4, "CORE"), (5, "NUM")]

/-- Where the entry of a table lies, unless that is beyond what 64 bits can say. -/
def entryOffset? (table : UInt64) (index entrySize : UInt16) : Option UInt64 :=
  let offset := table.toNat + index.toNat * entrySize.toNat
  if offset < UInt64.size then some (UInt64.ofNat offset) else none

theorem entryOffset?_eq_some_iff {table offset : UInt64} {index entrySize : UInt16} :
    entryOffset? table index entrySize = some offset ↔
      offset.toNat = table.toNat + index.toNat * entrySize.toNat := by
  simp only [entryOffset?]
  split
  · rename_i h
    rw [Option.some.injEq, ← UInt64.toNat_inj, UInt64.toNat_ofNat_of_lt' h, eq_comm]
  · have hlt : offset.toNat < UInt64.size := offset.toNat_lt
    simp only [reduceCtorEq, false_iff]
    omega

namespace FileHeader

/-- The name of the kind of object file. -/
def objectTypeName (h : FileHeader) : String :=
  (objectTypeNames.lookup h.objectType).getD "UNKNOWN_ET"

/-- Whether addresses have 64 bits. -/
def is64Bit (h : FileHeader) : Bool := h.elfClass = .elf64

/-- Whether the image is an executable that is not position independent. -/
def isExecutable (h : FileHeader) : Bool := h.objectType = 2

/-- Where an entry of the section table lies. -/
def sectionEntryOffset? (h : FileHeader) (index : UInt16) : Option UInt64 :=
  entryOffset? h.sectionTable index h.sectionEntrySize

/-- Where an entry of the segment table lies. -/
def segmentEntryOffset? (h : FileHeader) (index : UInt16) : Option UInt64 :=
  entryOffset? h.segmentTable index h.segmentEntrySize

/-- The fields of the header in their order, the identification first. -/
def fields (c : ElfClass) : Fields FileHeader := do
  Fields.skip ElfClass.identSize
  let objectType ← Fields.half
  let machine ← Fields.half
  Fields.skip 4
  let entry ← Fields.wide c.wordSize
  let segmentTable ← Fields.wide c.wordSize
  let sectionTable ← Fields.wide c.wordSize
  let flags ← Fields.word
  let headerSize ← Fields.half
  let segmentEntrySize ← Fields.half
  let segmentCount ← Fields.half
  let sectionEntrySize ← Fields.half
  let sectionCount ← Fields.half
  let nameTableIndex ← Fields.half
  return { elfClass := c, objectType, machine, entry, segmentTable, sectionTable, flags, headerSize,
           segmentEntrySize, segmentCount, sectionEntrySize, sectionCount, nameTableIndex }

/-- The header at the front of some bytes. -/
def decode? (c : ElfClass) (bytes : List UInt8) : Option FileHeader := (fields c).decode? bytes

/-- The bytes of a header behind the given identification bytes. -/
def encode (ident : List UInt8) (version : UInt32) (h : FileHeader) : List UInt8 :=
  let word (n : UInt64) := LittleEndian.ofNat h.elfClass.wordSize n.toNat
  let half (n : UInt16) := LittleEndian.ofNat 2 n.toNat
  ident ++ half h.objectType ++ half h.machine ++ LittleEndian.ofNat 4 version.toNat ++
    word h.entry ++ word h.segmentTable ++ word h.sectionTable ++
    LittleEndian.ofNat 4 h.flags.toNat ++ half h.headerSize ++ half h.segmentEntrySize ++
    half h.segmentCount ++ half h.sectionEntrySize ++ half h.sectionCount ++ half h.nameTableIndex

theorem length_encode {ident : List UInt8} (hi : ident.length = ElfClass.identSize)
    (version : UInt32) (h : FileHeader) :
    (encode ident version h).length = h.elfClass.headerSize := by
  cases hc : h.elfClass <;>
    simp [encode, hi, hc, ElfClass.wordSize, ElfClass.pointerSize, ElfClass.headerSize,
      ElfClass.identSize]

end FileHeader

end ElfUnwind
