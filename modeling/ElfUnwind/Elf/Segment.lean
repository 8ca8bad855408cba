import ElfUnwind.Bytes.Fields
import ElfUnwind.Elf.ElfClass

/-!
# Segments

An entry of the segment table says which part of the image is mapped where, and with which rights.
The two classes order its fields differently: with 64-bit addresses the rights come second, with
32-bit addresses last but one.
-/

namespace ElfUnwind

/-- The names of the kinds of segments. -/
def segmentTypeNames : List (UInt32 × String) :=
  [(0, "PT_NULL"), (1, "PT_LOAD"), (2, "PT_DYNAMIC"), (3, "PT_INTERP"), (4, "PT_NOTE"),
   (5, "PT_SHLIB"), (6, "PT_PHDR"), (7, "PT_TLS"), (8, "PT_NUM"), (0x60000000, "PT_LOOS"),
   (0x6474e550, "PT_GNU_EH_FRAME"), (0x6474e551, "PT_GNU_STACK"), (0x6474e552, "PT_GNU_RELRO"),
   (0x6474e553, "PT_GNU_PROPERTY"), (0x6ffffffa, "PT_SUNWBSS"), (0x6ffffffb, "PT_SUNWSTACK"),
   (0x6fffffff, "PT_HIOS"), (0x70000000, "PT_LOPROC"), (0x70000001, "PT_ARM_EXIDX"),
   (0x7fffffff, "PT_HIPROC")]

/-- An entry of the segment table. -/
structure Segment where
  /-- The number of its kind. -/
  kind : UInt32
  /-- The rights it is mapped with. -/
  flags : UInt32
  /-- Where its contents lie in the image. -/
  offset : UInt64
  /-- Where it lies in memory. -/
  virtualAddress : UInt64
  /-- Where it lies in physical memory, if that matters. -/
  physicalAddress : UInt64
  /-- How many bytes it has in the image. -/
  fileSize : UInt64
  /-- How many bytes it has in memory. -/
  memorySize : UInt64
  /-- What its addresses are multiples of. -/
  align : UInt64
  deriving DecidableEq, Repr

namespace Segment

/-- The name of its kind. -/
def typeName (s : Segment) : String := (segmentTypeNames.lookup s.kind).getD "UNKNOWN_PT"

/-- Whether it is mapped into memory. -/
def isLoad (s : Segment) : Bool := s.kind = 1

/-- Whether it may be executed. -/
def isExecutable (s : Segment) : Bool := s.flags &&& 1 != 0

/-- Whether it may be written. -/
def isWritable (s : Segment) : Bool := s.flags &&& 2 != 0

/-- Whether it may be read. -/
def isReadable (s : Segment) : Bool := s.flags &&& 4 != 0

/-- The letters of its rights, in the order execute, write, read. -/
def rights (s : Segment) : String :=
  String.ofList <|
    (if s.isExecutable then ['X'] else []) ++ (if s.isWritable then ['W'] else []) ++
      (if s.isReadable then ['R'] else [])

/-- The fields of an entry in their order. -/
def fields (c : ElfClass) : Fields Segment := do
  match c with
  | .elf32 =>
    let kind ← Fields.word
    let offset ← Fields.wide 4
    let virtualAddress ← Fields.wide 4
    let physicalAddress ← Fields.wide 4
    let fileSize ← Fields.wide 4
    let memorySize ← Fields.wide 4
    let flags ← Fields.word
    let align ← Fields.wide 4
    return { kind, flags, offset, virtualAddress, physicalAddress, fileSize, memorySize, align }
  | .elf64 =>
    let kind ← Fields.word
    let flags ← Fields.word
    let offset ← Fields.wide 8
    let virtualAddress ← Fields.wide 8
    let physicalAddress ← Fields.wide 8
    let fileSize ← Fields.wide 8
    let memorySize ← Fields.wide 8
    let align ← Fields.wide 8
    return { kind, flags, offset, virtualAddress, physicalAddress, fileSize, memorySize, align }

/-- The entry at the front of some bytes. -/
def decode? (c : ElfClass) (bytes : List UInt8) : Option Segment := (fields c).decode? bytes

/-- The bytes of an entry. -/
def encode (c : ElfClass) (s : Segment) : List UInt8 :=
  let word (n : UInt64) := LittleEndian.ofNat c.wordSize n.toNat
  let kind := LittleEndian.ofNat 4 s.kind.toNat
  let flags := LittleEndian.ofNat 4 s.flags.toNat
  let places := word s.offset ++ word s.virtualAddress ++ word s.physicalAddress ++
    word s.fileSize ++ word s.memorySize
  match c with
  | .elf32 => kind ++ places ++ flags ++ word s.align
  | .elf64 => kind ++ flags ++ places ++ word s.align

theorem length_encode (c : ElfClass) (s : Segment) :
    (s.encode c).length = c.segmentEntrySize := by
  cases c <;> simp [encode, ElfClass.wordSize, ElfClass.pointerSize, ElfClass.segmentEntrySize]

/-- The lowest address among the segments that are mapped and may be executed. -/
def lowestExecutable? (segments : List Segment) : Option UInt64 :=
  ((segments.filter fun s => s.isLoad && s.isExecutable).map virtualAddress).min?

end Segment

end ElfUnwind
