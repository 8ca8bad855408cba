import ElfUnwind.Image.Structure

/-!
# Laying out an image

An image is laid out from its sections and segments: the file header, the segment table, the
contents of the sections one after the other, the table of section names, and the section table. The
section table has an entry without a name first and that of the table of names last.
-/

namespace ElfUnwind

/-- A section that is to be laid out. -/
structure SectionSource where
  /-- The name. -/
  name : String
  /-- The number of its kind. -/
  kind : UInt32
  /-- Its attributes. -/
  flags : UInt64
  /-- Where it lies in memory once it is mapped. -/
  address : UInt64
  /-- Its bytes. -/
  contents : List UInt8
  deriving DecidableEq, Repr

/-- What an image is laid out from. -/
structure ImageSource where
  /-- How wide the addresses are. -/
  elfClass : ElfClass
  /-- The kind of object file. -/
  objectType : UInt16
  /-- The target architecture. -/
  machine : UInt16
  /-- The address execution starts at. -/
  entry : UInt64
  /-- Flags of the architecture. -/
  flags : UInt32
  /-- The sections, without that of the names. -/
  sections : List SectionSource
  /-- The segments. -/
  segments : List Segment
  deriving DecidableEq, Repr

namespace ImageSource

/-- The name of the section of names. -/
def nameTableName : String := ".shstrtab"

/-- The number of the kind of sections that hold names. -/
def nameTableKind : UInt32 := 3

/-- A name as it stands in the table of names. -/
def nameRecord (name : String) : List UInt8 := name.toList.flatMap String.utf8EncodeChar ++ [0]

/-- The names of all sections that have one. -/
def names (i : ImageSource) : List String := i.sections.map SectionSource.name ++ [nameTableName]

/-- The table of names: an empty name, then those of the sections. -/
def nameTable (i : ImageSource) : List UInt8 := 0 :: i.names.flatMap nameRecord

/-- Where the pieces of a list begin that are put one after the other from `offset` on. -/
def offsets (offset : Nat) : List (List UInt8) → List Nat
  | [] => []
  | piece :: pieces => offset :: offsets (offset + piece.length) pieces

/-- Where the segment table begins. -/
def segmentTable (i : ImageSource) : Nat := i.elfClass.headerSize

/-- Where the contents of the sections begin. -/
def contentsStart (i : ImageSource) : Nat :=
  i.segmentTable + i.segments.length * i.elfClass.segmentEntrySize

/-- The contents of the sections, the names last. -/
def contents (i : ImageSource) : List (List UInt8) :=
  i.sections.map SectionSource.contents ++ [i.nameTable]

/-- Where the section table begins. -/
def sectionTable (i : ImageSource) : Nat := i.contentsStart + i.contents.flatten.length

/-- The file header. -/
def header (i : ImageSource) : FileHeader where
  elfClass := i.elfClass
  objectType := i.objectType
  machine := i.machine
  entry := i.entry
  segmentTable := UInt64.ofNat i.segmentTable
  sectionTable := UInt64.ofNat i.sectionTable
  flags := i.flags
  headerSize := UInt16.ofNat i.elfClass.headerSize
  segmentEntrySize := UInt16.ofNat i.elfClass.segmentEntrySize
  segmentCount := UInt16.ofNat i.segments.length
  sectionEntrySize := UInt16.ofNat i.elfClass.sectionEntrySize
  sectionCount := UInt16.ofNat (i.sections.length + 2)
  nameTableIndex := UInt16.ofNat (i.sections.length + 1)

/-- The entry without a name. -/
def nullEntry : SectionEntry := ⟨0, 0, 0, 0, 0, 0⟩

/-- The table of names as a section. -/
def nameSource (i : ImageSource) : SectionSource :=
  ⟨nameTableName, nameTableKind, 0, 0, i.nameTable⟩

/-- The entry of a section with its name and its contents at the given offsets. -/
def entryOf (source : SectionSource) (nameOffset offset : Nat) : SectionEntry where
  nameOffset := UInt32.ofNat nameOffset
  kind := source.kind
  flags := source.flags
  address := source.address
  offset := UInt64.ofNat offset
  size := UInt64.ofNat source.contents.length

/-- The entries of all sections that have a name. -/
def entries (i : ImageSource) : List SectionEntry :=
  let sources := i.sections ++ [i.nameSource]
  -- The empty name stands before the others, so they begin at 1.
  let nameOffsets := offsets 1 (i.names.map nameRecord)
  let contentOffsets := offsets i.contentsStart i.contents
  (sources.zip (nameOffsets.zip contentOffsets)).map fun (source, nameOffset, offset) =>
    entryOf source nameOffset offset

/-- An entry of the section table with the fields behind it, which are zero. -/
def sectionEntryBytes (c : ElfClass) (e : SectionEntry) : List UInt8 :=
  e.encode c ++ List.replicate (c.sectionEntrySize - (8 + 4 * c.wordSize)) 0

/-- The bytes of the image. -/
def bytes (i : ImageSource) : List UInt8 :=
  i.header.encode i.elfClass.ident 1 ++ i.segments.flatMap (Segment.encode i.elfClass) ++
    i.contents.flatten ++ (nullEntry :: i.entries).flatMap (sectionEntryBytes i.elfClass)

theorem length_sectionEntryBytes (c : ElfClass) (e : SectionEntry) :
    (sectionEntryBytes c e).length = c.sectionEntrySize := by
  cases c <;>
    simp [sectionEntryBytes, SectionEntry.length_encode, ElfClass.sectionEntrySize,
      ElfClass.wordSize, ElfClass.pointerSize]

end ImageSource

end ElfUnwind
